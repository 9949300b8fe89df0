import Peerpaste.Network.Rounds

/-!
This module contains how a network settles: once every node knows its neighbours, the rounds of the
nodes make all successor lists right, whatever else was in them before and in whatever order the
nodes take their rounds.
-/

namespace Peerpaste

namespace Network

structure Walks (net : Network) (n : Nat) (e : Endpoint) : Prop where
  length_le : n ≤ (net.table e).successorList.length
  isMember : ∀ p ∈ (net.table e).successorList.take n, net.IsMember p
  isChain : (net.selfAt e :: (net.table e).successorList.take n).IsChain
    (fun x y => Clockwise.IsNext net.ids x.id y.id)

structure IsEpoch (endpoints : Finset Endpoint) (rounds : List Round) : Prop where
  mem : ∀ r ∈ rounds, r.endpoint ∈ endpoints
  stabilize : ∀ e ∈ endpoints, ∃ out, Round.stabilize e out ∈ rounds
  checkPredecessor : ∀ e ∈ endpoints, ∃ out, Round.checkPredecessor e out ∈ rounds

def epochOf (endpoints : List Endpoint) (out : Nat → Outside) : List Round :=
  endpoints.flatMap fun e => [.stabilize e out, .checkPredecessor e out]

theorem isEpoch_epochOf (endpoints : List Endpoint) (out : Nat → Outside) :
    IsEpoch endpoints.toFinset (epochOf endpoints out) := by
  constructor
  case mem =>
    intro r hr
    simp only [epochOf, List.mem_flatMap, List.mem_cons, List.not_mem_nil, or_false] at hr
    rcases hr with ⟨e, he, rfl | rfl⟩
    . exact List.mem_toFinset.mpr he
    . exact List.mem_toFinset.mpr he
  case stabilize =>
    exact fun e he => ⟨out, List.mem_flatMap.mpr ⟨e, List.mem_toFinset.mp he, by simp⟩⟩
  case checkPredecessor =>
    exact fun e he => ⟨out, List.mem_flatMap.mpr ⟨e, List.mem_toFinset.mp he, by simp⟩⟩

theorem isEpoch_of_mem_replicate {endpoints : List Endpoint} {out : Nat → Outside} {n : Nat} :
    ∀ rounds ∈ List.replicate n (epochOf endpoints out), IsEpoch endpoints.toFinset rounds := by
  intro rounds hrounds
  rw [List.eq_of_mem_replicate hrounds]
  exact isEpoch_epochOf endpoints out

section

variable {net net' : Network} {e : Endpoint} {n k : Nat} {s : Peer}

theorem Walks.mono (h : net.Walks n e) (hk : k ≤ n) : net.Walks k e := by
  have htake : (net.table e).successorList.take k
    = ((net.table e).successorList.take n).take k := by
    rw [List.take_take, Nat.min_eq_left hk]
  refine ⟨hk.trans h.length_le, ?_, ?_⟩
  . intro p hp
    rw [htake] at hp
    exact h.isMember p (List.mem_of_mem_take hp)
  . rw [htake]
    exact h.isChain.take (k + 1)

theorem Walks.congr (h : net.Walks n e) (he : e ∈ net.endpoints) (hsame : net.SameNodes net')
    (htable : net'.table e = net.table e) : net'.Walks n e := by
  constructor
  case length_le =>
    rw [htable]
    exact h.length_le
  case isMember =>
    intro p hp
    rw [htable] at hp
    exact hsame.isMember_iff.mpr (h.isMember p hp)
  case isChain =>
    rw [htable, hsame.selfAt_eq he, hsame.ids_eq]
    exact h.isChain

theorem Walks.replaceSuccessorList (h : net.Walks n s.endpoint) (he : e ∈ net.endpoints)
    (hs : net.IsMember s) (hnext : Clockwise.IsNext net.ids (net.selfAt e).id s.id)
    (hn : n < RoutingTable.succListSize) :
    (net.setTable e ((net.table e).replaceSuccessorList
      (s :: (net.table s.endpoint).successorList))).Walks (n + 1) e := by
  have hsame : net.SameNodes (net.setTable e ((net.table e).replaceSuccessorList
      (s :: (net.table s.endpoint).successorList))) := .setTable rfl
  have htake : ((net.table e).replaceSuccessorList
      (s :: (net.table s.endpoint).successorList)).successorList.take (n + 1)
      = s :: (net.table s.endpoint).successorList.take n := by
    exact RoutingTable.take_resize hn (Nat.succ_le_succ h.length_le)
  have hchain := h.isChain
  rw [hs.selfAt_eq] at hchain
  constructor
  case length_le =>
    rw [setTable_table_self]
    simp only [RoutingTable.replaceSuccessorList, RoutingTable.resize_length]
    exact hn
  case isMember =>
    intro p hp
    rw [setTable_table_self, htake] at hp
    rw [hsame.isMember_iff]
    rcases List.mem_cons.mp hp with rfl | hp
    . exact hs
    . exact h.isMember p hp
  case isChain =>
    rw [setTable_table_self, htake, hsame.selfAt_eq he, hsame.ids_eq, List.isChain_cons_cons]
    exact ⟨hnext, hchain⟩

theorem Linked.walks (h : net.Linked) (he : e ∈ net.endpoints) : net.Walks 1 e := by
  rcases h.successor e he (Set.notMem_empty e) with ⟨s, hs, hmem, hnext⟩
  rcases List.head?_eq_some_iff.mp hs with ⟨rest, hlist⟩
  constructor
  case length_le => simp [hlist]
  case isMember => simpa [hlist] using hmem
  case isChain => simpa [hlist] using hnext

theorem Ideal.linked (h : net.Ideal) : net.Linked where
  toWellFormed := h.toWellFormed
  id_ne := h.id_ne
  successorList_ne_nil e he := h.successorList_ne_nil he
  predecessor e he _ := h.predecessor e he
  successor e he _ := by
    rcases h.exists_neighbours he with ⟨_, s, hn⟩
    exact ⟨s, hn.successor_eq, hn.isMember_successor, hn.isNext_successor⟩

theorem Linked.ideal (h : net.Linked)
    (hwalks : ∀ e ∈ net.endpoints, net.Walks RoutingTable.succListSize e)
    (hsize : ∀ e ∈ net.endpoints, (net.table e).size = RoutingTable.succListSize) : net.Ideal := by
  have htake (e : Endpoint) (he : e ∈ net.endpoints) :
      (net.table e).successorList.take RoutingTable.succListSize = (net.table e).successorList := by
    apply List.take_of_length_le
    exact (hsize e he).le
  refine ⟨h.toWellFormed, h.id_ne, ?_, hsize, ?_, ?_⟩
  . intro e he
    exact h.predecessor e he (Set.notMem_empty e)
  . intro e he p hp
    apply (hwalks e he).isMember
    rw [htake e he]
    exact hp
  . intro e he
    have hchain := (hwalks e he).isChain
    rw [htake e he] at hchain
    exact hchain

end

section Round

variable {net : Network} {sha256 : String → String} {n : Nat}

theorem Linked.round (h : net.Linked) (sha256 : String → String) {r : Round}
    (hr : r.endpoint ∈ net.endpoints) :
    (Network.round sha256 net r = some net ∧ ∀ out, r ≠ .stabilize r.endpoint out)
      ∨
    ∃ s, net.IsMember s ∧ Clockwise.IsNext net.ids (net.selfAt r.endpoint).id s.id
      ∧ Network.round sha256 net r = some (net.setTable r.endpoint
        ((net.table r.endpoint).replaceSuccessorList (s :: (net.table s.endpoint).successorList)))
      ∧ (net.setTable r.endpoint ((net.table r.endpoint).replaceSuccessorList
        (s :: (net.table s.endpoint).successorList))).Linked := by
  cases r with
  | stabilize e out =>
    right
    rcases h.stabilizeRound_quiet sha256 out hr (Set.notMem_empty e)
      (fun _ _ => Set.notMem_empty _) with ⟨s, _, hmem, hnext, hround, hlinked⟩
    exact ⟨s, hmem, hnext, hround, hlinked⟩
  | checkPredecessor e out =>
    left
    refine ⟨h.checkPredecessorRound_quiet sha256 out hr (Set.notMem_empty e), ?_⟩
    intro out' heq
    cases heq

theorem Linked.round_linked (h : net.Linked) (sha256 : String → String) {r : Round}
    (hr : r.endpoint ∈ net.endpoints) :
    ∃ net', Network.round sha256 net r = some net' ∧ net.SameNodes net' ∧ net'.Linked := by
  rcases h.round sha256 hr with ⟨hround, _⟩ | ⟨s, _, _, hround, hlinked⟩
  . exact ⟨net, hround, .refl net, h⟩
  . exact ⟨_, hround, .replaceSuccessorList _ _ _, hlinked⟩

theorem exec_round_reaches {Inv Goal : Network → Prop} {Helps : Round → Prop} {rounds : List Round}
    (hround : ∀ net r, Inv net → r.endpoint ∈ net.endpoints →
      ∃ net', Network.round sha256 net r = some net' ∧ net.SameNodes net' ∧ Inv net'
        ∧ (Helps r → Goal net'))
    (hkeeps : ∀ net r, Goal net → r.endpoint ∈ net.endpoints →
      ∃ net', Network.round sha256 net r = some net' ∧ net.SameNodes net' ∧ Goal net')
    (hweaken : ∀ net, Goal net → Inv net) (hnet : Inv net)
    (hrounds : ∀ r ∈ rounds, r.endpoint ∈ net.endpoints) (hhelp : ∃ r ∈ rounds, Helps r) :
    ∃ net', Run.exec (Network.round sha256) net rounds = some net' ∧ net.SameNodes net'
    ∧ Goal net' := by
  have hstep : ∀ t r, net.SameNodes t ∧ Inv t → r.endpoint ∈ net.endpoints →
      ∃ t', Network.round sha256 t r = some t' ∧ (net.SameNodes t' ∧ Inv t')
        ∧ (Helps r → net.SameNodes t' ∧ Goal t') := by
    rintro t r ⟨hsame, h⟩ hr
    rcases hround t r h (hsame.endpoints_eq ▸ hr) with ⟨t', ht, hsame', hInv, hhelps⟩
    exact ⟨t', ht, ⟨hsame.trans hsame', hInv⟩, fun hhelp => ⟨hsame.trans hsame', hhelps hhelp⟩⟩
  have hkeeps' : ∀ t r, net.SameNodes t ∧ Goal t → r.endpoint ∈ net.endpoints →
      ∃ t', Network.round sha256 t r = some t' ∧ net.SameNodes t' ∧ Goal t' := by
    rintro t r ⟨hsame, h⟩ hr
    rcases hkeeps t r h (hsame.endpoints_eq ▸ hr) with ⟨t', ht, hsame', hgoal⟩
    exact ⟨t', ht, hsame.trans hsame', hgoal⟩
  exact Run.exec_reaches hstep hkeeps' (fun t h => ⟨h.1, hweaken t h.2⟩)
    ⟨.refl net, hnet⟩ hrounds hhelp

structure Settling (net₀ : Network) (n : Nat) (net : Network) : Prop where
  same : net₀.SameNodes net
  linked : net.Linked
  walks : ∀ e ∈ net₀.endpoints, net.Walks (min (n + 1) RoutingTable.succListSize) e
  size_eq : 0 < n → ∀ e ∈ net₀.endpoints, (net.table e).size = RoutingTable.succListSize

structure Ahead (n : Nat) (e : Endpoint) (net : Network) : Prop where
  walks : net.Walks (min (n + 1 + 1) RoutingTable.succListSize) e
  size_eq : (net.table e).size = RoutingTable.succListSize

theorem Ahead.congr {net' : Network} {e : Endpoint} (h : Ahead n e net) (he : e ∈ net.endpoints)
    (hsame : net.SameNodes net') (htable : net'.table e = net.table e) : Ahead n e net' := by
  refine ⟨h.walks.congr he hsame htable, ?_⟩
  rw [htable]
  exact h.size_eq

theorem Ahead.replaceSuccessorList {e : Endpoint} {s : Peer}
    (h : net.Walks (min (n + 1) RoutingTable.succListSize) s.endpoint) (he : e ∈ net.endpoints)
    (hs : net.IsMember s) (hnext : Clockwise.IsNext net.ids (net.selfAt e).id s.id) :
    Ahead n e (net.setTable e ((net.table e).replaceSuccessorList
      (s :: (net.table s.endpoint).successorList))) := by
  constructor
  . have hlt : min (n + 1) (RoutingTable.succListSize - 1) < RoutingTable.succListSize := by
      simp only [RoutingTable.succListSize]
      omega
    refine ((h.mono ?_).replaceSuccessorList he hs hnext hlt).mono ?_
    . omega
    . simp only [RoutingTable.succListSize]
      omega
  . rw [setTable_table_self]
    exact RoutingTable.resize_length _

theorem Settling.step {net₀ : Network} (h : Settling net₀ n net)
    (sha256 : String → String) {r : Round} (hr : r.endpoint ∈ net₀.endpoints) :
    ∃ net', Network.round sha256 net r = some net' ∧ Settling net₀ n net'
      ∧ ∀ e ∈ net₀.endpoints, Ahead n e net ∨ (∃ out, r = .stabilize e out) → Ahead n e net' := by
  have hr' : r.endpoint ∈ net.endpoints := h.same.endpoints_eq ▸ hr
  rcases h.linked.round sha256 hr' with
    ⟨hround, hother⟩ | ⟨s, hmem, hnext, hround, hlinked⟩
  . refine ⟨net, hround, h, ?_⟩
    rintro e _ (hahead | ⟨out, rfl⟩)
    . exact hahead
    . exact absurd rfl (hother out)
  . let net' := net.setTable r.endpoint
      ((net.table r.endpoint).replaceSuccessorList (s :: (net.table s.endpoint).successorList))
    have hsame : net.SameNodes net' := .setTable rfl
    have hother (e : Endpoint) (heq : e ≠ r.endpoint) : net'.table e = net.table e :=
      setTable_table_of_ne heq _
    have hahead : Ahead n r.endpoint net' :=
      .replaceSuccessorList (h.walks s.endpoint (h.same.endpoints_eq ▸ hmem.1)) hr' hmem hnext
    refine ⟨net', hround, ⟨h.same.trans hsame, hlinked, ?_, ?_⟩, ?_⟩
    . intro e he
      by_cases heq : e = r.endpoint
      . rw [heq]
        exact hahead.walks.mono (by omega)
      . exact (h.walks e he).congr (h.same.endpoints_eq ▸ he) hsame (hother e heq)
    . intro hn e he
      by_cases heq : e = r.endpoint
      . rw [heq]
        exact hahead.size_eq
      . rw [hother e heq]
        exact h.size_eq hn e he
    . rintro e he (hahead' | ⟨out, rfl⟩)
      . by_cases heq : e = r.endpoint
        . rw [heq]
          exact hahead
        . exact hahead'.congr (h.same.endpoints_eq ▸ he) hsame (hother e heq)
      . exact hahead

theorem Settling.epoch {net₀ : Network} (h : Settling net₀ n net) (sha256 : String → String)
    {rounds : List Round} (hrounds : IsEpoch net₀.endpoints rounds) :
    ∃ net', Run.exec (Network.round sha256) net rounds = some net'
    ∧ Settling net₀ (n + 1) net' := by
  have hstep : ∀ net r, Settling net₀ n net → r.endpoint ∈ net₀.endpoints →
      ∃ net', Network.round sha256 net r = some net' ∧ Settling net₀ n net'
        ∧ ∀ e : {e // e ∈ net₀.endpoints},
          Ahead n e.1 net ∨ (∃ out, r = .stabilize e.1 out) → Ahead n e.1 net' := by
    intro net r h hr
    rcases h.step sha256 hr with ⟨net', hround, hnext, hahead⟩
    exact ⟨net', hround, hnext, fun e => hahead e.1 e.2⟩
  have hhelps : ∀ e : {e // e ∈ net₀.endpoints},
      Ahead n e.1 net ∨ ∃ r ∈ rounds, ∃ out, r = .stabilize e.1 out := by
    rintro ⟨e, he⟩
    rcases hrounds.stabilize e he with ⟨out, hout⟩
    exact Or.inr ⟨_, hout, out, rfl⟩
  rcases Run.exec_achieves hstep h hrounds.mem hhelps with ⟨net', hexec, hnext, hahead⟩
  refine ⟨net', hexec, hnext.same, hnext.linked, ?_, ?_⟩
  . exact fun e he => (hahead ⟨e, he⟩).walks
  . exact fun _ e he => (hahead ⟨e, he⟩).size_eq

theorem Linked.settling (h : net.Linked) : Settling net 0 net := by
  refine ⟨.refl net, h, fun e he => ?_, fun hlt => absurd hlt (Nat.lt_irrefl 0)⟩
  exact (h.walks he).mono (Nat.min_le_left _ _)

theorem Settling.ideal {net₀ : Network} (h : Settling net₀ n net)
    (hn : RoutingTable.succListSize ≤ n + 1) :
    net.Ideal := by
  apply h.linked.ideal
  . intro e he
    have hwalks := h.walks e (h.same.endpoints_eq ▸ he)
    rw [Nat.min_eq_right hn] at hwalks
    exact hwalks
  . intro e he
    apply h.size_eq _ e (h.same.endpoints_eq ▸ he)
    simp only [RoutingTable.succListSize] at hn
    omega

theorem Linked.exec_epochs {net : Network} (hnet : net.Linked) (sha256 : String → String)
    (epochs : List (List Round)) (hepochs : ∀ rounds ∈ epochs, IsEpoch net.endpoints rounds)
    (hlength : RoutingTable.succListSize ≤ epochs.length + 1) :
    ∃ net', Run.exec (Network.round sha256) net epochs.flatten = some net' ∧ net.SameNodes net'
      ∧ net'.Ideal := by
  have hepoch : ∀ n net' rounds, Settling net n net' → IsEpoch net.endpoints rounds →
      ∃ net'', Run.exec (Network.round sha256) net' rounds = some net''
      ∧ Settling net (n + 1) net'' :=
    fun _ _ _ h hrounds => h.epoch sha256 hrounds
  rcases Run.exec_epochs hepoch epochs hepochs hnet.settling with ⟨net', hexec, h⟩
  rw [Nat.zero_add] at h
  exact ⟨net', hexec, h.same, h.ideal hlength⟩

end Round

/--
When every node knows its predecessor and has the right first entry, whatever is behind that in the
lists, nine epochs make the ring ideal, however the nodes take their rounds.
-/
theorem linked_settles {net : Network} (hnet : net.Linked) (sha256 : String → String)
    (epochs : List (List Round)) (hepochs : ∀ rounds ∈ epochs, IsEpoch net.endpoints rounds)
    (hlength : RoutingTable.succListSize ≤ epochs.length + 1) :
    ∃ net', Run.exec (round sha256) net epochs.flatten = some net'
      ∧ net'.Ideal
      ∧ net'.endpoints = net.endpoints
      ∧ ∀ p, net'.IsMember p ↔ net.IsMember p := by
  rcases hnet.exec_epochs sha256 epochs hepochs hlength with ⟨net', hexec, hsame, hideal⟩
  exact ⟨net', hexec, hideal, hsame.endpoints_eq, fun p => hsame.isMember_iff⟩

theorem threeNodes_ideal : threeNodes.Ideal where
  toWellFormed := threeNodes_settled.toWellFormed
  id_ne := by decide
  predecessor := threeNodes_settled.predecessor
  size_eq := threeNodes_settled.size_eq
  isMember := threeNodes_settled.isMember
  isChain := threeNodes_settled.isChain

def staleNodes : Network :=
  threeNodes.setTable nodeA.endpoint ⟨nodeA, nodeC, [nodeB, ⟨"ff", "10.0.0.9", "6100"⟩]⟩

theorem staleNodes_linked : staleNodes.Linked := by
  refine threeNodes_ideal.linked.setTable ?_ ?_ ?_ ?_
  . decide
  . decide
  . exact fun _ => by decide
  . exact fun _ => by decide

theorem linked_settles_staleNodes :
    let out : Nat → Outside := fun _ =>
      ⟨"t1", "t2", ⟨0, "10.0.0.1"⟩, fun _ => ⟨⟨0, "10.0.0.1"⟩, "t3", "t4"⟩⟩
    let epoch := epochOf [nodeC.endpoint, nodeA.endpoint, nodeB.endpoint] out
    ∃ net', Run.exec (round fun _ => nodeA.id) staleNodes (List.replicate 9 epoch).flatten
      = some net'
      ∧ net'.Ideal := by
  intro out epoch
  have hends : staleNodes.endpoints = [nodeC.endpoint, nodeA.endpoint,
    nodeB.endpoint].toFinset := by decide
  rcases linked_settles staleNodes_linked (fun _ => nodeA.id) (List.replicate 9 epoch)
    (hends ▸ isEpoch_of_mem_replicate) (by decide) with ⟨net', hexec, hideal, _⟩
  exact ⟨net', hexec, hideal⟩

end Network

end Peerpaste
