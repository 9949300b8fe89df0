import Peerpaste.Network.Settle

/-!
This module contains the integration of a new node while all nodes take their rounds as they like:
the new node has to tell its successor of itself, and its predecessor has to hear of it there.
-/

namespace Peerpaste

namespace Network

structure Joining (n p s : Peer) (announced : Bool) (net : Network) : Prop where
  linked : net.LinkedBut {n.endpoint, s.endpoint} {p.endpoint}
  consecutive : net.Consecutive p n s
  ne_predecessor : n.endpoint ≠ p.endpoint
  ne_successor : n.endpoint ≠ s.endpoint
  predecessor_new : (net.table n.endpoint).predecessor = none
  predecessor_eq : (net.table s.endpoint).predecessor = some (if announced then n else p)
  successor_eq : (net.table p.endpoint).tryGetSuccessor = some s

namespace Joining

variable {net net' : Network} {n p s : Peer} {announced : Bool} {e : Endpoint}
  {rt : RoutingTable Peer} {sha256 : String → String} {out : Nat → Outside}

theorem setTable (h : Joining n p s announced net) (hself : rt.self = (net.table e).self)
    (hpred : rt.predecessor = (net.table e).predecessor)
    (hsucc : rt.tryGetSuccessor = (net.table e).tryGetSuccessor) (hlist : rt.successorList ≠ []) :
    Joining n p s announced (net.setTable e rt) := by
  have htable (e' : Endpoint) : ((net.setTable e rt).table e').predecessor
      = (net.table e').predecessor
      ∧ ((net.setTable e rt).table e').tryGetSuccessor = (net.table e').tryGetSuccessor := by
    by_cases heq : e' = e
    . rw [heq, setTable_table_self]
      exact ⟨hpred, hsucc⟩
    . rw [setTable_table_of_ne heq]
      exact ⟨rfl, rfl⟩
  refine ⟨h.linked.setTable hself hlist (fun _ => hpred) (fun _ => hsucc),
    h.consecutive.congr (.setTable hself), h.ne_predecessor, h.ne_successor, ?_, ?_, ?_⟩
  . rw [(htable _).1, h.predecessor_new]
  . rw [(htable _).1, h.predecessor_eq]
  . rw [(htable _).2, h.successor_eq]

theorem replaceSuccessorList (h : Joining n p s announced net) {successor : Peer}
    (hsucc : (net.table e).tryGetSuccessor = some successor) (list : List Peer) :
    Joining n p s announced
      (net.setTable e ((net.table e).replaceSuccessorList (successor :: list))) := by
  refine h.setTable ?_ ?_ ?_ ?_
  . rfl
  . rfl
  . rw [hsucc]
    exact RoutingTable.head?_resize_cons _ _
  . exact RoutingTable.resize_ne_nil _

theorem setPredecessor (h : Joining n p s announced net) :
    Joining n p s true (net.setTable s.endpoint ((net.table s.endpoint).setPredecessor n)) := by
  have hs := h.consecutive.isMember_right.1
  have hsucc : ((net.setTable s.endpoint ((net.table s.endpoint).setPredecessor n)).table
      p.endpoint).tryGetSuccessor = (net.table p.endpoint).tryGetSuccessor := by
    by_cases heq : p.endpoint = s.endpoint
    . rw [heq, setTable_table_self]
      rfl
    . rw [setTable_table_of_ne heq]
  refine ⟨?_, h.consecutive.congr (.setTable rfl), h.ne_predecessor, h.ne_successor, ?_, ?_, ?_⟩
  . refine h.linked.setTable ?_ ?_ ?_ ?_
    . rfl
    . exact h.linked.successorList_ne_nil _ hs
    . exact fun hmem => absurd (Set.mem_insert_of_mem _ rfl) hmem
    . exact fun _ => rfl
  . rw [setTable_table_of_ne h.ne_successor, h.predecessor_new]
  . rw [setTable_table_self]
    rfl
  . rw [hsucc, h.successor_eq]

theorem successor_new (h : Joining n p s announced net) :
    (net.table n.endpoint).tryGetSuccessor = some s := by
  apply h.linked.successor_eq h.consecutive.isMember_middle h.consecutive.isMember_right
    h.consecutive.isNext_right
  exact h.ne_predecessor

theorem stabilizeRound_new (h : Joining n p s announced net) (sha256 : String → String)
    (out : Nat → Outside) :
    ∃ net', net.stabilizeRound sha256 out n.endpoint = some net' ∧ net.SameNodes net'
      ∧ Joining n p s true net' := by
  have hn := h.consecutive.isMember_middle
  have hs := h.consecutive.isMember_right
  have hid := h.linked.id_ne n.endpoint hn.1
  rw [hn.selfAt_eq] at hid
  have hlist := h.linked.successorList_ne_nil s.endpoint hs.1
  have hreplaced := h.replaceSuccessorList h.successor_new (net.table s.endpoint).successorList
  cases announced with
  | true =>
    have hpred : (net.table s.endpoint).predecessor = some n := h.predecessor_eq
    exact ⟨_, stabilizeRound_of_predecessor hn.2 hid h.successor_new hs.1 hpred hlist,
      .setTable rfl, hreplaced⟩
  | false =>
    have hpred : (net.table s.endpoint).predecessor = some p := h.predecessor_eq
    have hbetween := h.consecutive.between h.linked.toWellFormed h.ne_successor
    have hannounced := hreplaced.setPredecessor
    rw [setTable_table_of_ne h.ne_successor.symm] at hannounced
    refine ⟨_, ?_, ?_, hannounced⟩
    . rw [stabilizeRound_of_not_between hn.2 hid h.successor_new hs.1 hpred hlist
        h.consecutive.not_between,
        setTable_table_of_ne h.ne_successor.symm, notified_of_between hs.2 hpred hbetween]
    . refine (SameNodes.replaceSuccessorList _ _ _).trans (.setTable ?_)
      rw [setTable_table_of_ne h.ne_successor.symm]
      rfl

theorem stabilizeRound_predecessor (h : Joining n p s announced net) (sha256 : String → String)
    (out : Nat → Outside) :
    ∃ net', net.stabilizeRound sha256 out p.endpoint = some net' ∧ net.SameNodes net'
      ∧ (Joining n p s announced net' ∨ net'.Linked) ∧ (announced = true → net'.Linked) := by
  have hp := h.consecutive.isMember_left
  have hn := h.consecutive.isMember_middle
  have hs := h.consecutive.isMember_right
  have hid := h.linked.id_ne p.endpoint hp.1
  rw [hp.selfAt_eq] at hid
  have hlist := h.linked.successorList_ne_nil s.endpoint hs.1
  cases announced with
  | false =>
    have hpred : (net.table s.endpoint).predecessor = some p := h.predecessor_eq
    refine ⟨_, stabilizeRound_of_predecessor hp.2 hid h.successor_eq hs.1 hpred hlist,
      .setTable rfl, Or.inl ?_, fun heq => nomatch heq⟩
    exact h.replaceSuccessorList h.successor_eq _
  | true =>
    have hpred : (net.table s.endpoint).predecessor = some n := h.predecessor_eq
    have hbetween := h.consecutive.between h.linked.toWellFormed h.ne_successor
    let rt := (net.table p.endpoint).replaceSuccessorList
      (n :: (net.table n.endpoint).successorList)
    let net' := (net.setTable p.endpoint rt).setTable n.endpoint
      ((net.table n.endpoint).setPredecessor p)
    have hround : net.stabilizeRound sha256 out p.endpoint = some net' := by
      rw [stabilizeRound_of_between hp.2 hid h.successor_eq hs.1 hpred hlist hbetween hn.1
        h.ne_predecessor
        hn.2, setTable_table_of_ne h.ne_predecessor, notified_of_none h.predecessor_new]
    have hself : ((net.table n.endpoint).setPredecessor p).self
        = ((net.setTable p.endpoint rt).table n.endpoint).self := by
      rw [setTable_table_of_ne h.ne_predecessor]
      rfl
    have hsame : net.SameNodes net' :=
      (SameNodes.replaceSuccessorList _ _ _).trans (.setTable hself)
    have hconsecutive := h.consecutive.congr hsame
    have hbut : net'.LinkedBut {n.endpoint, s.endpoint} {p.endpoint} := by
      refine LinkedBut.setTable (h.linked.setTable ?_ ?_ ?_ ?_) hself ?_ ?_ ?_
      . rfl
      . exact RoutingTable.resize_ne_nil _
      . exact fun _ => rfl
      . exact fun hmem => absurd rfl hmem
      . exact h.linked.successorList_ne_nil _ hn.1
      . exact fun hmem => absurd (Set.mem_insert _ _) hmem
      . intro _
        rw [setTable_table_of_ne h.ne_predecessor]
        rfl
    have hlinked : net'.Linked := by
      have hnew : (net'.table n.endpoint) = (net.table n.endpoint).setPredecessor p :=
        setTable_table_self _
      have hpsucc : (net'.table p.endpoint).tryGetSuccessor = some n := by
        rw [setTable_table_of_ne h.ne_predecessor.symm, setTable_table_self]
        exact RoutingTable.head?_resize_cons _ _
      have hspred : (net'.table s.endpoint).predecessor = some n := by
        rw [setTable_table_of_ne h.ne_successor.symm, ← hpred]
        by_cases heq : s.endpoint = p.endpoint
        . rw [heq, setTable_table_self]
          rfl
        . rw [setTable_table_of_ne heq]
      have hnsucc : (net'.table n.endpoint).tryGetSuccessor = some s := by
        rw [hnew]
        exact h.successor_new
      have hnpred : (net'.table n.endpoint).predecessor = some p := by
        rw [hnew]
        rfl
      rw [← insert_empty_eq s.endpoint, ← insert_empty_eq p.endpoint] at hbut
      have hleft := hbut.link hconsecutive.isMember_left hconsecutive.isMember_middle
        hconsecutive.isNext_left hnpred hpsucc
      exact (hleft.mono subset_rfl (Set.empty_subset _)).link hconsecutive.isMember_middle
        hconsecutive.isMember_right hconsecutive.isNext_right hspred hnsucc
    exact ⟨net', hround, hsame, Or.inr hlinked, fun _ => hlinked⟩

theorem stabilizeRound_other (h : Joining n p s announced net) (sha256 : String → String)
    (out : Nat → Outside) (he : e ∈ net.endpoints) (hn : e ≠ n.endpoint) (hp : e ≠ p.endpoint) :
    ∃ net', net.stabilizeRound sha256 out e = some net' ∧ net.SameNodes net'
      ∧ Joining n p s announced net' := by
  have hself := h.linked.isMember_selfAt he
  have hend := h.linked.endpoint_selfAt e he
  rcases h.linked.successor e he hp with ⟨t, ht, hmem, hnext⟩
  have hother : t.endpoint ∉ ({n.endpoint, s.endpoint} : Set Endpoint) := by
    -- each of the two has only one node before it
    rintro (heq | heq)
    . rw [hmem.eq_of_endpoint_eq h.consecutive.isMember_middle heq] at hnext
      have := h.linked.eq_of_isNext hself h.consecutive.isMember_left hnext
        h.consecutive.isNext_left
      exact hp (hend ▸ congrArg Peer.endpoint this)
    . rw [hmem.eq_of_endpoint_eq h.consecutive.isMember_right heq] at hnext
      have := h.linked.eq_of_isNext hself h.consecutive.isMember_middle hnext
        h.consecutive.isNext_right
      exact hn (hend ▸ congrArg Peer.endpoint this)
  rcases h.linked.stabilizeRound_quiet sha256 out he hp (fun t' ht' => by
      rw [ht, Option.some.injEq] at ht'
      exact ht' ▸ hother) with ⟨t', ht', _, _, hround, _⟩
  exact ⟨_, hround, .replaceSuccessorList _ _ _, h.replaceSuccessorList ht' _⟩

theorem checkPredecessorRound (h : Joining n p s announced net) (sha256 : String → String)
    (out : Nat → Outside) (he : e ∈ net.endpoints) :
    net.checkPredecessorRound sha256 out e = some net := by
  by_cases hn : e = n.endpoint
  . subst hn
    exact checkPredecessorRound_of_none h.predecessor_new
  by_cases hs : e = s.endpoint
  . subst hs
    refine checkPredecessorRound_eq h.predecessor_eq ?_
    cases announced with
    | true => exact h.consecutive.isMember_middle.1
    | false => exact h.consecutive.isMember_left.1
  . apply h.linked.checkPredecessorRound_quiet sha256 out he
    rintro (heq | heq)
    . exact hn heq
    . exact hs heq

end Joining

def Integrating (n p s : Peer) (announced : Bool) (net : Network) : Prop :=
  net.Linked ∨ Joining n p s announced net

section Epochs

variable {net net' : Network} {n p s : Peer} {announced : Bool} {rounds : List Round}

theorem Joining.round (h : Joining n p s announced net) (sha256 : String → String) {r : Round}
    (hr : r.endpoint ∈ net.endpoints) :
    ∃ net', Network.round sha256 net r = some net' ∧ net.SameNodes net'
      ∧ (Integrating n p s announced net' ∨ Integrating n p s true net')
      ∧ ((∃ out, r = .stabilize n.endpoint out) → Integrating n p s true net')
      ∧ ((∃ out, r = .stabilize p.endpoint out) → announced = true → net'.Linked) := by
  cases r with
  | stabilize e out =>
    by_cases hp : e = p.endpoint
    . subst hp
      rcases h.stabilizeRound_predecessor sha256 out with ⟨net', hround, hsame, hjoining, hlinked⟩
      refine ⟨net', hround, hsame, Or.inl hjoining.symm, ?_, fun _ => hlinked⟩
      rintro ⟨out', heq⟩
      exact absurd (congrArg Round.endpoint heq).symm h.ne_predecessor
    by_cases hn : e = n.endpoint
    . subst hn
      rcases h.stabilizeRound_new sha256 out with ⟨net', hround, hsame, hjoining⟩
      refine ⟨net', hround, hsame, Or.inr (Or.inr hjoining), fun _ => Or.inr hjoining, ?_⟩
      rintro ⟨out', heq⟩
      exact absurd (congrArg Round.endpoint heq) h.ne_predecessor
    . rcases h.stabilizeRound_other sha256 out hr hn hp with ⟨net', hround, hsame, hjoining⟩
      refine ⟨net', hround, hsame, Or.inl (Or.inr hjoining), ?_, ?_⟩
      . rintro ⟨out', heq⟩
        exact absurd (congrArg Round.endpoint heq) hn
      . rintro ⟨out', heq⟩
        exact absurd (congrArg Round.endpoint heq) hp
  | checkPredecessor e out =>
    refine ⟨net, h.checkPredecessorRound sha256 out hr, .refl net, Or.inl (Or.inr h), ?_, ?_⟩
    . rintro ⟨out', heq⟩
      cases heq
    . rintro ⟨out', heq⟩
      cases heq

theorem Integrating.round (h : Integrating n p s announced net)
    (sha256 : String → String) {r : Round} (hr : r.endpoint ∈ net.endpoints) :
    ∃ net', Network.round sha256 net r = some net' ∧ net.SameNodes net'
      ∧ (Integrating n p s announced net' ∨ Integrating n p s true net')
      ∧ ((∃ out, r = .stabilize n.endpoint out) → Integrating n p s true net')
      ∧ ((∃ out, r = .stabilize p.endpoint out) → announced = true → net'.Linked) := by
  rcases h with hlinked | hjoining
  . rcases hlinked.round_linked sha256 hr with ⟨net', hround, hsame, hlinked'⟩
    exact ⟨net', hround, hsame, Or.inl (Or.inl hlinked'), fun _ => Or.inl hlinked',
      fun _ _ => hlinked'⟩
  . exact hjoining.round sha256 hr

theorem Integrating.epoch_new (h : Integrating n p s announced net)
    (hn : n.endpoint ∈ net.endpoints) (sha256 : String → String)
    (hrounds : IsEpoch net.endpoints rounds) :
    ∃ net', Run.exec (Network.round sha256) net rounds = some net' ∧ net.SameNodes net'
      ∧ Integrating n p s true net' := by
  have hround : ∀ t r, (∃ announced, Integrating n p s announced t) → r.endpoint ∈ t.endpoints →
      ∃ t', Network.round sha256 t r = some t' ∧ t.SameNodes t'
        ∧ (∃ announced, Integrating n p s announced t')
        ∧ ((∃ out, r = .stabilize n.endpoint out) → Integrating n p s true t') := by
    rintro t r ⟨announced, h⟩ hr
    rcases h.round sha256 hr with ⟨t', hround, hsame, hnext, hhelps, _⟩
    exact ⟨t', hround, hsame, hnext.elim (fun h => ⟨_, h⟩) (fun h => ⟨_, h⟩), hhelps⟩
  have hkeeps : ∀ t r, Integrating n p s true t → r.endpoint ∈ t.endpoints →
      ∃ t', Network.round sha256 t r = some t' ∧ t.SameNodes t' ∧ Integrating n p s true t' := by
    intro t r h hr
    rcases h.round sha256 hr with ⟨t', hround, hsame, hnext, _⟩
    exact ⟨t', hround, hsame, hnext.elim id id⟩
  rcases hrounds.stabilize _ hn with ⟨out, hout⟩
  exact exec_round_reaches hround hkeeps (fun _ h => ⟨true, h⟩) ⟨announced, h⟩ hrounds.mem
    ⟨_, hout, out, rfl⟩

theorem Integrating.epoch_predecessor (h : Integrating n p s true net)
    (hp : p.endpoint ∈ net.endpoints) (sha256 : String → String)
    (hrounds : IsEpoch net.endpoints rounds) :
    ∃ net', Run.exec (Network.round sha256) net rounds = some net' ∧ net.SameNodes net'
      ∧ net'.Linked := by
  have hround : ∀ t r, Integrating n p s true t → r.endpoint ∈ t.endpoints →
      ∃ t', Network.round sha256 t r = some t' ∧ t.SameNodes t' ∧ Integrating n p s true t'
        ∧ ((∃ out, r = .stabilize p.endpoint out) → t'.Linked) := by
    intro t r h hr
    rcases h.round sha256 hr with ⟨t', hround, hsame, hnext, _, hhelps⟩
    exact ⟨t', hround, hsame, hnext.elim id id, fun hhelp => hhelps hhelp rfl⟩
  rcases hrounds.stabilize _ hp with ⟨out, hout⟩
  exact exec_round_reaches hround (fun _ _ h hr => h.round_linked sha256 hr) (fun _ h => Or.inl h) h
    hrounds.mem ⟨_, hout, out, rfl⟩

theorem Joining.exec_epochs (h : Joining n p s announced net) (sha256 : String → String)
    (epochs : List (List Round)) (hepochs : ∀ rounds ∈ epochs, IsEpoch net.endpoints rounds)
    (hlength : RoutingTable.succListSize + 1 ≤ epochs.length) :
    ∃ net', Run.exec (Network.round sha256) net epochs.flatten = some net' ∧ net.SameNodes net'
      ∧ net'.Ideal := by
  rcases epochs with _ | ⟨first, _ | ⟨second, epochs⟩⟩
  . simp [RoutingTable.succListSize] at hlength
  . simp [RoutingTable.succListSize] at hlength
  rw [List.forall_mem_cons, List.forall_mem_cons] at hepochs
  rcases hepochs with ⟨hfirst, hsecond, hepochs⟩
  have hn := h.consecutive.isMember_middle.1
  have hp := h.consecutive.isMember_left.1
  have h : Integrating n p s announced net := Or.inr h
  rcases h.epoch_new hn sha256 hfirst with ⟨net₁, hexec₁, hsame₁, h₁⟩
  rw [← hsame₁.endpoints_eq] at hsecond hp
  rcases h₁.epoch_predecessor hp sha256 hsecond with ⟨net₂, hexec₂, hsame₂, h₂⟩
  have hsame := hsame₁.trans hsame₂
  rw [← hsame.endpoints_eq] at hepochs
  rcases h₂.exec_epochs sha256 epochs hepochs (by simpa using hlength) with
    ⟨net₃, hexec₃, hsame₃, h₃⟩
  refine ⟨net₃, ?_, hsame.trans hsame₃, h₃⟩
  rw [List.flatten_cons, List.flatten_cons]
  exact Run.exec_trans hexec₁ (Run.exec_trans hexec₂ hexec₃)

end Epochs

section Start

variable {net net' : Network} {n p s : Peer} {e : Endpoint}

theorem Gap.joined_table_new (net : Network) (n s : Peer) :
    (Gap.joined net n s).table n.endpoint = Gap.newTable net n s :=
  addNode_table_self _ _ _

theorem Gap.joined_table (h : net.Gap n p s) (he : e ∈ net.endpoints) :
    (Gap.joined net n s).table e = net.table e :=
  addNode_table_of_ne _ (h.ne_of_mem he) _

theorem Integrated.sameNodes (h : net.Integrated n p s net') (hgap : net.Gap n p s) :
    net'.SameNodes (Gap.joined net n s) := by
  refine ⟨h.endpoints_eq.symm, ?_⟩
  intro e he
  rw [h.endpoints_eq] at he
  rcases Finset.mem_insert.mp he with rfl | he
  . rw [Gap.joined_table_new, h.self_new]
    rfl
  . rw [hgap.joined_table he, h.self_eq e he]

theorem Integrated.joining (h : net.Integrated n p s net') (hgap : net.Gap n p s) (hnet : net.Ideal)
    (hid : n.id ≠ "") : Joining n p s false (Gap.joined net n s) := by
  have hsame := h.sameNodes hgap
  have hwellFormed := h.wellFormed hnet.toWellFormed hgap.id_not_mem
  have hneighbours (e : Endpoint) (he : e ∈ net'.endpoints) :=
    h.exists_neighbours hnet.toWellFormed (fun e he => hnet.exists_neighbours he) hgap.id_not_mem
      hgap.isMember_predecessor hgap.isMember_successor hgap.isNext hgap.isSuccessor he
  have hp := hgap.isMember_predecessor
  have hs := hgap.isMember_successor
  have hconsecutive : net'.Consecutive p n s := by
    rcases hneighbours n.endpoint h.isMember_new.1 with ⟨p', s', hnode⟩
    have hp' := hnode.predecessor_eq
    have hs' := hnode.successor_eq
    rw [h.predecessor_new, Option.some.injEq] at hp'
    rw [h.successor_new, Option.some.injEq] at hs'
    subst hp' hs'
    have hpnext := hnode.isNext_predecessor
    have hsnext := hnode.isNext_successor
    rw [h.isMember_new.selfAt_eq] at hpnext hsnext
    exact ⟨h.isMember hp, h.isMember_new, h.isMember hs, hpnext, hsnext⟩
  refine ⟨⟨hsame.wellFormed hwellFormed, ?_, ?_, ?_, ?_⟩, hconsecutive.congr hsame,
    (hgap.ne_of_mem hp.1).symm, (hgap.ne_of_mem hs.1).symm, ?_, ?_, ?_⟩
  . intro e he
    rw [hsame.selfAt_eq (hsame.endpoints_eq ▸ he)]
    rcases Finset.mem_insert.mp he with rfl | he
    . rw [h.selfAt_new]
      exact hid
    . rw [h.selfAt_eq he]
      exact hnet.id_ne e he
  . intro e he
    rcases Finset.mem_insert.mp he with rfl | he
    . rw [Gap.joined_table_new]
      exact RoutingTable.resize_ne_nil _
    . rw [hgap.joined_table he]
      exact hnet.successorList_ne_nil he
  . intro e he hne
    have he' : e ∈ net'.endpoints := hsame.endpoints_eq ▸ he
    rcases hneighbours e he' with ⟨q, _, hnode⟩
    have hq := hnode.predecessor_eq
    rcases Finset.mem_insert.mp he with rfl | he
    . exact absurd (Set.mem_insert _ _) hne
    refine ⟨q, ?_, hsame.isMember_iff.mpr hnode.isMember_predecessor, ?_⟩
    . have hne' : e ≠ s.endpoint := fun heq => hne (Set.mem_insert_of_mem _ heq)
      rw [h.predecessor_eq e he, if_neg hne'] at hq
      rw [hgap.joined_table he]
      exact hq
    . rw [hsame.ids_eq, hsame.selfAt_eq he']
      exact hnode.isNext_predecessor
  . intro e he hne
    have he' : e ∈ net'.endpoints := hsame.endpoints_eq ▸ he
    rcases hneighbours e he' with ⟨_, t, hnode⟩
    have ht := hnode.successor_eq
    refine ⟨t, ?_, hsame.isMember_iff.mpr hnode.isMember_successor, ?_⟩
    . rcases Finset.mem_insert.mp he with rfl | he
      . rw [h.successor_new] at ht
        rw [Gap.joined_table_new, ← ht]
        exact RoutingTable.head?_resize_cons _ _
      . have hne' : e ≠ p.endpoint := hne
        rw [h.successor_eq e he, if_neg hne'] at ht
        rw [hgap.joined_table he]
        exact ht
    . rw [hsame.ids_eq, hsame.selfAt_eq he']
      exact hnode.isNext_successor
  . rw [Gap.joined_table_new]
    rfl
  . rw [hgap.joined_table hs.1]
    exact hgap.predecessor_eq
  . rw [hgap.joined_table hp.1]
    exact hgap.successor_eq

theorem Ideal.exists_joining (hnet : net.Ideal) (sha256 : String → String)
    (hsha : ∀ text, sha256 text ≠ "") (out : Nat → Outside) {init m : Peer}
    (hn : n = queried sha256 (out 2).session init)
    (hid : n.id ∉ net.ids) (hend : n.endpoint ∉ net.endpoints) (hm : net.IsMember m) :
    ∃ p s net', (net.addNode n.endpoint (RoutingTable.init init)).joinRound sha256 out
        n.endpoint m.ip m.port
        = some net'
      ∧ net'.endpoints = insert n.endpoint net.endpoints
      ∧ (∀ q, net'.IsMember q ↔ q = n ∨ net.IsMember q)
      ∧ Joining n p s false net' := by
  rcases hnet.joinRound_eq sha256 out hm hn hend with ⟨s, hs, hsucc, hjoin⟩
  rcases hnet.exists_gap hs hsucc hid hend with ⟨p, hgap⟩
  have hp := hgap.isMember_predecessor
  have hpid := hnet.id_ne _ hp.1
  rw [hp.selfAt_eq] at hpid
  have hnid : n.id ≠ "" := hn ▸ hsha _
  rcases hgap.stabilizeRound_predecessor hpid sha256 out with ⟨net', _, hint⟩
  refine ⟨p, s, _, hjoin, rfl, ?_, hint.joining hgap hnet hnid⟩
  intro q
  rw [← hint.isMember_iff]
  exact (hint.sameNodes hgap).isMember_iff

end Start

/--
However the nodes take their rounds after a new one has joined an ideal ring, two epochs link it and
nine more make all successor lists right: the ring with the new node is ideal again.
-/
theorem join_settles {net : Network} (hnet : net.Ideal) (sha256 : String → String)
    (hsha : ∀ text, sha256 text ≠ "") (out : Nat → Outside) (init n m : Peer)
    (hn : n = queried sha256 (out 2).session init) (hid : n.id ∉ net.ids)
    (hend : n.endpoint ∉ net.endpoints) (hm : net.IsMember m) (epochs : List (List Round))
    (hepochs : ∀ rounds ∈ epochs, IsEpoch (insert n.endpoint net.endpoints) rounds)
    (hlength : RoutingTable.succListSize + 1 ≤ epochs.length) :
    ∃ net₁ net₂, (net.addNode n.endpoint (RoutingTable.init init)).joinRound sha256 out
        n.endpoint m.ip m.port
        = some net₁
      ∧ Run.exec (round sha256) net₁ epochs.flatten = some net₂
      ∧ net₂.Ideal
      ∧ net₂.endpoints = insert n.endpoint net.endpoints
      ∧ ∀ q, net₂.IsMember q ↔ q = n ∨ net.IsMember q := by
  rcases hnet.exists_joining sha256 hsha out hn hid hend hm with
    ⟨p, s, net₁, hjoin, hends, hmembers, h⟩
  rw [← hends] at hepochs
  rcases h.exec_epochs sha256 epochs hepochs hlength with ⟨net₂, hexec, hsame, hideal⟩
  refine ⟨net₁, net₂, hjoin, hexec, hideal, hsame.endpoints_eq.trans hends, ?_⟩
  intro q
  rw [hsame.isMember_iff, hmembers q]

theorem join_settles_oneNode :
    let out : Nat → Outside := fun _ =>
      ⟨"t1", "t2", ⟨0, "10.0.0.2"⟩, fun _ => ⟨⟨0, "10.0.0.2"⟩, "t3", "t4"⟩⟩
    let epoch := epochOf [nodeC.endpoint, nodeA.endpoint] out
    ∃ net₁ net₂,
      ((oneNode nodeA).addNode nodeC.endpoint (RoutingTable.init nodeC)).joinRound
        (fun _ => nodeC.id) out nodeC.endpoint nodeA.ip nodeA.port = some net₁
      ∧ Run.exec (round fun _ => nodeC.id) net₁ (List.replicate 11 epoch).flatten = some net₂
      ∧ net₂.Ideal ∧ net₂.IsMember nodeC := by
  intro out epoch
  have hid : nodeC.id ≠ "" := by decide
  have hends : insert nodeC.endpoint (oneNode nodeA).endpoints
      = [nodeC.endpoint, nodeA.endpoint].toFinset := by decide
  rcases join_settles (oneNode_ideal (by decide)) (fun _ => nodeC.id)
    (fun _ => hid) out nodeC nodeC nodeA
    rfl (by decide) (by decide) (by decide) (List.replicate 11 epoch)
    (hends ▸ isEpoch_of_mem_replicate) (by decide) with ⟨net₁, net₂, hjoin, hexec, hideal, _, hmem⟩
  exact ⟨net₁, net₂, hjoin, hexec, hideal, (hmem nodeC).mpr (Or.inl rfl)⟩

end Network

end Peerpaste
