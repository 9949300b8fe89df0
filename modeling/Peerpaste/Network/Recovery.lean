import Peerpaste.Network.Settle

/-!
This module contains the recovery of a ring some of whose nodes have crashed: the node after them
has to notice that its predecessor is gone, and the node before them has to find that node in its
list.
-/

namespace Peerpaste

namespace Network

/--
The nodes at some endpoints are gone. Nobody else knows of it.
-/
def crash (net : Network) (gone : Finset Endpoint) : Network :=
  { net with endpoints := net.endpoints \ gone }

inductive Lag (dead : List Peer) (s t : Peer) (n : Nat) (predecessor : Option Peer)
    (list : List Peer) : Prop where
  | searching {front rest : List Peer} (hdead : ∀ d ∈ front, d ∈ dead)
      (hlist : list = front ++ s :: t :: rest) (hn : front.length + 2 ≤ n)
  | skipped {rest : List Peer} (hnone : predecessor = none) (hlist : list = t :: rest) (hn : 1 ≤ n)

structure Recovering (dead : List Peer) (p s t : Peer) (noticed : Bool) (n : Nat) (net : Network) :
    Prop where
  linked : net.LinkedBut {s.endpoint} {p.endpoint}
  consecutive : net.Consecutive p s t
  ne_left : s.endpoint ≠ p.endpoint
  ne_right : s.endpoint ≠ t.endpoint
  gone : ∀ d ∈ dead, d.endpoint ∉ net.endpoints
  predecessor : ∀ d ∈ (net.table s.endpoint).predecessor, noticed = false ∧ d ∈ dead
    ∧ Clockwise.Between p.id d.id s.id
  lag : Lag dead s t n (net.table s.endpoint).predecessor (net.table p.endpoint).successorList

def Repairing (dead : List Peer) (p s t : Peer) (noticed : Bool) (n : Nat) (net : Network) : Prop :=
  net.Linked ∨ Recovering dead p s t noticed n net

namespace Recovering

variable {net net' : Network} {dead : List Peer} {p s t : Peer} {noticed : Bool} {n n' : Nat}
  {e : Endpoint} {rt : RoutingTable Peer}

theorem ne_nil (h : Recovering dead p s t noticed n net) :
    (net.table p.endpoint).successorList ≠ [] :=
  h.linked.successorList_ne_nil _ h.consecutive.isMember_left.1

theorem setTable (h : Recovering dead p s t noticed n net) (hself : rt.self = (net.table e).self)
    (hpred : rt.predecessor = (net.table e).predecessor)
    (hsucc : rt.tryGetSuccessor = (net.table e).tryGetSuccessor) (hlist : rt.successorList ≠ [])
    (he : e ≠ p.endpoint) : Recovering dead p s t noticed n (net.setTable e rt) := by
  have hspred : ((net.setTable e rt).table s.endpoint).predecessor
    = (net.table s.endpoint).predecessor := by
    by_cases heq : s.endpoint = e
    . rw [heq, setTable_table_self, hpred]
    . rw [setTable_table_of_ne heq]
  refine ⟨h.linked.setTable hself hlist (fun _ => hpred) (fun _ => hsucc),
    h.consecutive.congr (.setTable hself), h.ne_left, h.ne_right, h.gone, ?_, ?_⟩
  . rw [hspred]
    exact h.predecessor
  . rw [hspred, setTable_table_of_ne he.symm]
    exact h.lag

theorem setList (h : Recovering dead p s t noticed n net) {list : List Peer} (hlist : list ≠ [])
    (hlag : Lag dead s t n' (net.table s.endpoint).predecessor list) :
    Recovering dead p s t noticed n'
      (net.setTable p.endpoint { net.table p.endpoint with successorList := list }) := by
  refine ⟨?_, h.consecutive.congr (.setTable rfl), h.ne_left, h.ne_right, h.gone, ?_, ?_⟩
  . refine h.linked.setTable ?_ hlist ?_ ?_
    . rfl
    . exact fun _ => rfl
    . exact fun hne => absurd rfl hne
  . rw [setTable_table_of_ne h.ne_left]
    exact h.predecessor
  . rw [setTable_table_of_ne h.ne_left, setTable_table_self]
    exact hlag

theorem successor_eq (h : Recovering dead p s t noticed n net) :
    (net.table s.endpoint).tryGetSuccessor = some t := by
  apply h.linked.successor_eq h.consecutive.isMember_middle h.consecutive.isMember_right
    h.consecutive.isNext_right
  exact h.ne_left

theorem predecessor_eq (h : Recovering dead p s t noticed n net) :
    (net.table t.endpoint).predecessor = some s := by
  apply h.linked.predecessor_eq h.consecutive.isMember_middle h.consecutive.isMember_right
    h.consecutive.isNext_right
  exact h.ne_right.symm

theorem mono (h : Recovering dead p s t noticed n net) (hn : n ≤ n') :
    Recovering dead p s t noticed n' net := by
  refine { h with lag := ?_ }
  cases h.lag with
  | searching hdead hlist hle => exact .searching hdead hlist (hle.trans hn)
  | skipped hnone hlist hle => exact .skipped hnone hlist (hle.trans hn)

theorem id_ne (h : Recovering dead p s t noticed n net) : p.id ≠ "" := by
  have hp := h.consecutive.isMember_left
  rw [← hp.selfAt_eq]
  exact h.linked.id_ne p.endpoint hp.1

theorem stabilizeRound_of_gone (h : Recovering dead p s t noticed n net) (sha256 : String → String)
    (out : Nat → Outside) {d : Peer} {front rest : List Peer} (hdead : ∀ d' ∈ d :: front, d' ∈ dead)
    (hlist : (net.table p.endpoint).successorList = d :: front ++ s :: t :: rest)
    (hn : (d :: front).length + 2 ≤ n) :
    ∃ net', net.stabilizeRound sha256 out p.endpoint = some net' ∧ net.SameNodes net'
      ∧ Recovering dead p s t noticed (n - 1) net' := by
  have hsucc : (net.table p.endpoint).tryGetSuccessor = some d := by
    simp [RoutingTable.tryGetSuccessor, hlist]
  have hpop : (net.table p.endpoint).popFront
      = { net.table p.endpoint with successorList := front ++ s :: t :: rest } := by
    simp [RoutingTable.popFront, hlist]
  have hround : net.stabilizeRound sha256 out p.endpoint
      = some (net.setTable p.endpoint (net.table p.endpoint).popFront) :=
    stabilizeRound_of_not_mem hsucc (h.gone d (hdead d List.mem_cons_self))
  rw [hpop] at hround
  refine ⟨_, hround, .setTable rfl, h.setList ?_ ?_⟩
  . simp
  . refine .searching (fun d' hd' => hdead d' (List.mem_cons_of_mem _ hd')) rfl ?_
    rw [List.length_cons] at hn
    omega

theorem stabilizeRound_of_noticed (h : Recovering dead p s t noticed n net)
    (sha256 : String → String) (out : Nat → Outside) {rest : List Peer}
    (hlist : (net.table p.endpoint).successorList = s :: t :: rest)
    (hpred : (net.table s.endpoint).predecessor = none) (hn : 2 ≤ n) :
    ∃ net', net.stabilizeRound sha256 out p.endpoint = some net' ∧ net.SameNodes net'
      ∧ Recovering dead p s t noticed (n - 1) net' := by
  have hp := h.consecutive.isMember_left
  have hs := h.consecutive.isMember_middle
  have ht := h.consecutive.isMember_right
  -- the list loses `s`, and what `t` hears of is not between `s` and `t`
  let net' := net.setTable p.endpoint { net.table p.endpoint with successorList := t :: rest }
  have htpred : (net'.table t.endpoint).predecessor = some s := by
    by_cases heq : t.endpoint = p.endpoint
    . rw [heq, setTable_table_self]
      exact heq ▸ h.predecessor_eq
    . rw [setTable_table_of_ne heq, h.predecessor_eq]
  have htself : (net'.table t.endpoint).self = some t := by
    rw [(SameNodes.setTable rfl : net.SameNodes net').self_eq _ ht.1]
    exact ht.2
  have hnotified : notified (net'.table t.endpoint) p = net'.table t.endpoint := by
    simp [notified, htpred, htself, h.consecutive.not_between]
  have hround : net.stabilizeRound sha256 out p.endpoint = some net' := by
    rw [stabilizeRound_of_no_predecessor hp.2 h.id_ne hlist hs.1 hpred ht.1]
    exact congrArg some ((congrArg _ hnotified).trans (setTable_eq_self net' _))
  refine ⟨net', hround, .setTable rfl, h.setList ?_ (.skipped hpred rfl ?_)⟩
  . simp
  . omega

theorem stabilizeRound_of_unnoticed (h : Recovering dead p s t noticed n net)
    (sha256 : String → String) (out : Nat → Outside) {d : Peer} {rest : List Peer}
    (hlist : (net.table p.endpoint).successorList = s :: t :: rest)
    (hpred : (net.table s.endpoint).predecessor = some d) (hn : 2 ≤ n) :
    ∃ net', net.stabilizeRound sha256 out p.endpoint = some net' ∧ net.SameNodes net'
      ∧ noticed = false ∧ Recovering dead p s t noticed n net' := by
  have hp := h.consecutive.isMember_left
  have hs := h.consecutive.isMember_middle
  have hsucc : (net.table p.endpoint).tryGetSuccessor = some s := by
    simp [RoutingTable.tryGetSuccessor, hlist]
  have hslist := h.linked.successorList_ne_nil s.endpoint hs.1
  rcases h.predecessor d hpred with ⟨hnoticed, hd, hbetween⟩
  let list := RoutingTable.resize (s :: (net.table s.endpoint).successorList)
  have hround : net.stabilizeRound sha256 out p.endpoint
      = some (net.setTable p.endpoint { net.table p.endpoint with successorList := list }) :=
    stabilizeRound_of_between_not_mem hp.2 hsucc hs.1 hpred hslist hbetween (h.gone d hd)
  refine ⟨_, hround, .setTable rfl, hnoticed, h.setList (RoutingTable.resize_ne_nil _) ?_⟩
  rcases List.head?_eq_some_iff.mp h.successor_eq with ⟨tail, htail⟩
  rcases RoutingTable.exists_resize_cons_cons s t tail with ⟨rest', hrest'⟩
  have hlist' : list = [] ++ s :: t :: rest' := by
    simp only [list, htail, hrest', List.nil_append]
  exact .searching (List.forall_mem_nil _) hlist' hn

theorem stabilizeRound_of_skipped (h : Recovering dead p s t noticed n net)
    (sha256 : String → String) (out : Nat → Outside) {rest : List Peer}
    (hlist : (net.table p.endpoint).successorList = t :: rest)
    (hnone : (net.table s.endpoint).predecessor = none) :
    ∃ net', net.stabilizeRound sha256 out p.endpoint = some net' ∧ net.SameNodes net'
      ∧ net'.Linked := by
  have hp := h.consecutive.isMember_left
  have hs := h.consecutive.isMember_middle
  have ht := h.consecutive.isMember_right
  have hsucc : (net.table p.endpoint).tryGetSuccessor = some t := by
    simp [RoutingTable.tryGetSuccessor, hlist]
  have hbetween := h.consecutive.between h.linked.toWellFormed h.ne_right
  let rt := (net.table p.endpoint).replaceSuccessorList
    (s :: (net.table s.endpoint).successorList)
  let net' := (net.setTable p.endpoint rt).setTable s.endpoint
    ((net.table s.endpoint).setPredecessor p)
  have hround : net.stabilizeRound sha256 out p.endpoint = some net' := by
    rw [stabilizeRound_of_between hp.2 h.id_ne hsucc ht.1 h.predecessor_eq
      (h.linked.successorList_ne_nil _ ht.1) hbetween hs.1 h.ne_left hs.2]
    rw [setTable_table_of_ne h.ne_left, notified_of_none hnone]
  have hself : ((net.table s.endpoint).setPredecessor p).self
      = ((net.setTable p.endpoint rt).table s.endpoint).self := by
    rw [setTable_table_of_ne h.ne_left]
    rfl
  have hsame : net.SameNodes net' :=
    (SameNodes.replaceSuccessorList _ _ _).trans (.setTable hself)
  have hconsecutive := h.consecutive.congr hsame
  have hbut : net'.LinkedBut {s.endpoint} {p.endpoint} := by
    refine LinkedBut.setTable (h.linked.setTable ?_ ?_ ?_ ?_) hself ?_ ?_ ?_
    . rfl
    . exact RoutingTable.resize_ne_nil _
    . exact fun _ => rfl
    . exact fun hmem => absurd rfl hmem
    . exact h.linked.successorList_ne_nil s.endpoint hs.1
    . exact fun hmem => absurd rfl hmem
    . intro _
      rw [setTable_table_of_ne h.ne_left]
      rfl
  have hpred : (net'.table s.endpoint).predecessor = some p := by
    rw [setTable_table_self]
    rfl
  have hpsucc : (net'.table p.endpoint).tryGetSuccessor = some s := by
    rw [setTable_table_of_ne h.ne_left.symm, setTable_table_self]
    exact RoutingTable.head?_resize_cons _ _
  rw [← insert_empty_eq s.endpoint, ← insert_empty_eq p.endpoint] at hbut
  refine ⟨net', hround, hsame, ?_⟩
  exact hbut.link hconsecutive.isMember_left hconsecutive.isMember_middle
    hconsecutive.isNext_left hpred hpsucc

theorem stabilizeRound_predecessor (h : Recovering dead p s t noticed n net)
    (sha256 : String → String) (out : Nat → Outside) :
    ∃ net', net.stabilizeRound sha256 out p.endpoint = some net' ∧ net.SameNodes net'
      ∧ (Repairing dead p s t noticed (n - 1) net' ∨
        (noticed = false ∧ Recovering dead p s t noticed n net')) := by
  cases h.lag with
  | @searching front rest hdead hlist hn =>
    cases front with
    | cons d front =>
      rcases h.stabilizeRound_of_gone sha256 out hdead hlist hn with ⟨net', hround, hsame, h'⟩
      exact ⟨net', hround, hsame, Or.inl (Or.inr h')⟩
    | nil =>
      rw [List.length_nil, Nat.zero_add] at hn
      cases hpred : (net.table s.endpoint).predecessor with
      | none =>
        rcases h.stabilizeRound_of_noticed sha256 out hlist hpred hn with ⟨net', hround, hsame, h'⟩
        exact ⟨net', hround, hsame, Or.inl (Or.inr h')⟩
      | some d =>
        rcases h.stabilizeRound_of_unnoticed sha256 out hlist hpred hn with
          ⟨net', hround, hsame, h'⟩
        exact ⟨net', hround, hsame, Or.inr h'⟩
  | @skipped rest hnone hlist hn =>
    rcases h.stabilizeRound_of_skipped sha256 out hlist hnone with ⟨net', hround, hsame, hlinked⟩
    exact ⟨net', hround, hsame, Or.inl (Or.inl hlinked)⟩

theorem stabilizeRound_other (h : Recovering dead p s t noticed n net) (sha256 : String → String)
    (out : Nat → Outside) (he : e ∈ net.endpoints) (hp : e ≠ p.endpoint) :
    ∃ net', net.stabilizeRound sha256 out e = some net' ∧ net.SameNodes net'
      ∧ Recovering dead p s t noticed n net' := by
  have hself := h.linked.isMember_selfAt he
  have hend := h.linked.endpoint_selfAt e he
  have hother (u : Peer) (hu : (net.table e).tryGetSuccessor = some u) :
      u.endpoint ∉ ({s.endpoint} : Set Endpoint) := by
    intro heq
    rcases h.linked.successor e he hp with ⟨u', hu', hmem, hnext⟩
    rw [hu, Option.some.injEq] at hu'
    subst hu'
    rw [hmem.eq_of_endpoint_eq h.consecutive.isMember_middle heq] at hnext
    have := h.linked.eq_of_isNext hself h.consecutive.isMember_left hnext h.consecutive.isNext_left
    exact hp (hend ▸ congrArg Peer.endpoint this)
  rcases h.linked.stabilizeRound_quiet sha256 out he hp hother with ⟨u, hu, _, _, hround, _⟩
  refine ⟨_, hround, .replaceSuccessorList _ _ _, ?_⟩
  refine h.setTable ?_ ?_ ?_ ?_ hp
  . rfl
  . rfl
  . rw [hu]
    exact RoutingTable.head?_resize_cons _ _
  . exact RoutingTable.resize_ne_nil _

theorem resetPredecessor (h : Recovering dead p s t noticed n net) (noticed' : Bool) :
    Recovering dead p s t noticed' n
      (net.setTable s.endpoint (net.table s.endpoint).resetPredecessor) := by
  have hs := h.consecutive.isMember_middle.1
  refine ⟨?_, h.consecutive.congr (.setTable rfl), h.ne_left, h.ne_right, h.gone, ?_, ?_⟩
  . refine h.linked.setTable ?_ ?_ ?_ ?_
    . rfl
    . exact h.linked.successorList_ne_nil _ hs
    . exact fun hne => absurd rfl hne
    . exact fun _ => rfl
  . rw [setTable_table_self]
    intro d hd
    cases hd
  . rw [setTable_table_self, setTable_table_of_ne h.ne_left.symm]
    cases h.lag with
    | searching hdead hlist hn => exact .searching hdead hlist hn
    | skipped hnone hlist hn => exact .skipped rfl hlist hn

theorem checkPredecessorRound (h : Recovering dead p s t noticed n net) (sha256 : String → String)
    (out : Nat → Outside) (he : e ∈ net.endpoints) :
    ∃ net', net.checkPredecessorRound sha256 out e = some net' ∧ net.SameNodes net'
      ∧ Recovering dead p s t noticed n net'
      ∧ (e = s.endpoint → Recovering dead p s t true n net') := by
  by_cases heq : e = s.endpoint
  . subst heq
    cases hpred : (net.table s.endpoint).predecessor with
    | none =>
      have hnoticed : Recovering dead p s t true n net :=
        { h with predecessor := by rw [hpred]; exact fun d hd => nomatch hd }
      exact ⟨net, checkPredecessorRound_of_none hpred, .refl net, h, fun _ => hnoticed⟩
    | some d =>
      rcases h.predecessor d hpred with ⟨_, hd, _⟩
      refine ⟨_, checkPredecessorRound_of_not_mem hpred (h.gone d hd), .setTable rfl, ?_, ?_⟩
      . exact h.resetPredecessor noticed
      . exact fun _ => h.resetPredecessor true
  . refine ⟨net, ?_, .refl net, h, fun heq' => absurd heq' heq⟩
    exact h.linked.checkPredecessorRound_quiet sha256 out he heq

end Recovering

section Epochs

variable {net : Network} {dead : List Peer} {p s t : Peer} {noticed : Bool} {n n' : Nat}
  {rounds : List Round}

namespace Repairing

theorem weaken (h : Repairing dead p s t noticed n net) (hn : n ≤ n') :
    Repairing dead p s t false n' net := by
  refine h.imp_right fun h => ?_
  refine { h.mono hn with predecessor := ?_ }
  intro d hd
  exact ⟨rfl, (h.predecessor d hd).2⟩

theorem round (h : Repairing dead p s t noticed n net) (sha256 : String → String) {r : Round}
    (hr : r.endpoint ∈ net.endpoints) :
    ∃ net', Network.round sha256 net r = some net' ∧ net.SameNodes net'
      ∧ Repairing dead p s t noticed n net'
      ∧ ((∃ out, r = .checkPredecessor s.endpoint out) → Repairing dead p s t true n net')
      ∧ ((∃ out, r = .stabilize p.endpoint out) → noticed = true →
        Repairing dead p s t noticed (n - 1) net') := by
  rcases h with hlinked | h
  . rcases hlinked.round_linked sha256 hr with ⟨net', hround, hsame, hlinked'⟩
    exact ⟨net', hround, hsame, Or.inl hlinked', fun _ => Or.inl hlinked', fun _ _ =>
      Or.inl hlinked'⟩
  cases r with
  | stabilize e out =>
    by_cases hp : e = p.endpoint
    . subst hp
      rcases h.stabilizeRound_predecessor sha256 out with ⟨net', hround, hsame, hnext⟩
      refine ⟨net', hround, hsame, ?_, ?_, ?_⟩
      . rcases hnext with hnext | ⟨_, hnext⟩
        . exact hnext.imp_right fun h => h.mono (Nat.sub_le n 1)
        . exact Or.inr hnext
      . rintro ⟨out', heq⟩
        cases heq
      . rintro _ rfl
        rcases hnext with hnext | ⟨hfalse, _⟩
        . exact hnext
        . cases hfalse
    . rcases h.stabilizeRound_other sha256 out hr hp with ⟨net', hround, hsame, hnext⟩
      refine ⟨net', hround, hsame, Or.inr hnext, ?_, ?_⟩
      . rintro ⟨out', heq⟩
        cases heq
      . rintro ⟨out', heq⟩
        exact absurd (congrArg Round.endpoint heq) hp
  | checkPredecessor e out =>
    rcases h.checkPredecessorRound sha256 out hr with ⟨net', hround, hsame, hnext, hnoticed⟩
    refine ⟨net', hround, hsame, Or.inr hnext, ?_, ?_⟩
    . rintro ⟨out', heq⟩
      exact Or.inr (hnoticed (congrArg Round.endpoint heq))
    . rintro ⟨out', heq⟩
      cases heq

theorem epoch_notice (h : Repairing dead p s t false n net) (hs : s.endpoint ∈ net.endpoints)
    (sha256 : String → String) (hrounds : IsEpoch net.endpoints rounds) :
    ∃ net', Run.exec (Network.round sha256) net rounds = some net' ∧ net.SameNodes net'
      ∧ Repairing dead p s t true n net' := by
  have hround : ∀ u r, Repairing dead p s t false n u → r.endpoint ∈ u.endpoints →
      ∃ u', Network.round sha256 u r = some u' ∧ u.SameNodes u' ∧ Repairing dead p s t false n u'
        ∧ ((∃ out, r = .checkPredecessor s.endpoint out) → Repairing dead p s t true n u') := by
    intro u r h hr
    rcases h.round sha256 hr with ⟨u', hround, hsame, hnext, hhelps, _⟩
    exact ⟨u', hround, hsame, hnext, hhelps⟩
  have hkeeps : ∀ u r, Repairing dead p s t true n u → r.endpoint ∈ u.endpoints →
      ∃ u', Network.round sha256 u r = some u' ∧ u.SameNodes u'
      ∧ Repairing dead p s t true n u' := by
    intro u r h hr
    rcases h.round sha256 hr with ⟨u', hround, hsame, hnext, _⟩
    exact ⟨u', hround, hsame, hnext⟩
  rcases hrounds.checkPredecessor _ hs with ⟨out, hout⟩
  exact exec_round_reaches hround hkeeps (fun _ h => h.weaken le_rfl) h hrounds.mem
    ⟨_, hout, out, rfl⟩

theorem epoch_search (h : Repairing dead p s t true n net) (hp : p.endpoint ∈ net.endpoints)
    (sha256 : String → String) (hrounds : IsEpoch net.endpoints rounds) :
    ∃ net', Run.exec (Network.round sha256) net rounds = some net' ∧ net.SameNodes net'
      ∧ Repairing dead p s t true (n - 1) net' := by
  have hround : ∀ u r, Repairing dead p s t true n u → r.endpoint ∈ u.endpoints →
      ∃ u', Network.round sha256 u r = some u' ∧ u.SameNodes u' ∧ Repairing dead p s t true n u'
        ∧ ((∃ out, r = .stabilize p.endpoint out) → Repairing dead p s t true (n - 1) u') := by
    intro u r h hr
    rcases h.round sha256 hr with ⟨u', hround, hsame, hnext, _, hhelps⟩
    exact ⟨u', hround, hsame, hnext, fun hhelp => hhelps hhelp rfl⟩
  have hkeeps : ∀ u r, Repairing dead p s t true (n - 1) u → r.endpoint ∈ u.endpoints →
      ∃ u', Network.round sha256 u r = some u' ∧ u.SameNodes u'
        ∧ Repairing dead p s t true (n - 1) u' := by
    intro u r h hr
    rcases h.round sha256 hr with ⟨u', hround, hsame, hnext, _⟩
    exact ⟨u', hround, hsame, hnext⟩
  rcases hrounds.stabilize _ hp with ⟨out, hout⟩
  exact exec_round_reaches hround hkeeps (fun _ h => h.imp_right fun h => h.mono (Nat.sub_le n 1)) h
    hrounds.mem ⟨_, hout, out, rfl⟩

theorem linked (h : Repairing dead p s t true 0 net) : net.Linked := by
  rcases h with hlinked | h
  . exact hlinked
  . cases h.lag with
    | searching _ _ hn => omega
    | skipped _ _ hn => omega

theorem exec_search (h : Repairing dead p s t true n net) (hp : p.endpoint ∈ net.endpoints)
    (sha256 : String → String) (epochs : List (List Round))
    (hepochs : ∀ rounds ∈ epochs, IsEpoch net.endpoints rounds) (hlength : n ≤ epochs.length) :
    ∃ net', Run.exec (Network.round sha256) net epochs.flatten = some net' ∧ net.SameNodes net'
      ∧ net'.Linked := by
  have hepoch : ∀ m u rounds, (net.SameNodes u ∧ Repairing dead p s t true (n - m) u) →
      IsEpoch net.endpoints rounds → ∃ u', Run.exec (Network.round sha256) u rounds = some u'
        ∧ net.SameNodes u' ∧ Repairing dead p s t true (n - (m + 1)) u' := by
    rintro m u rounds ⟨hsame, h⟩ hrounds
    rw [← hsame.endpoints_eq] at hp hrounds
    rcases h.epoch_search hp sha256 hrounds with ⟨u', hexec, hsame', h'⟩
    exact ⟨u', hexec, hsame.trans hsame', h'⟩
  have hstart : net.SameNodes net ∧ Repairing dead p s t true (n - 0) net := ⟨.refl net, h⟩
  rcases Run.exec_epochs hepoch epochs hepochs hstart with ⟨net', hexec, hsame, h'⟩
  have hzero : n - (0 + epochs.length) = 0 := by omega
  rw [hzero] at h'
  exact ⟨net', hexec, hsame, h'.linked⟩

theorem exec_epochs (h : Repairing dead p s t false n net) (hp : p.endpoint ∈ net.endpoints)
    (hs : s.endpoint ∈ net.endpoints) (sha256 : String → String) (epochs : List (List Round))
    (hepochs : ∀ rounds ∈ epochs, IsEpoch net.endpoints rounds)
    (hlength : n + RoutingTable.succListSize ≤ epochs.length) :
    ∃ net', Run.exec (Network.round sha256) net epochs.flatten = some net' ∧ net.SameNodes net'
      ∧ net'.Ideal := by
  rcases epochs with _ | ⟨first, epochs⟩
  . simp [RoutingTable.succListSize] at hlength
  rw [List.forall_mem_cons] at hepochs
  rcases hepochs with ⟨hfirst, hepochs⟩
  simp only [List.length_cons, RoutingTable.succListSize] at hlength
  rw [← List.take_append_drop n epochs] at hepochs ⊢
  rw [List.forall_mem_append] at hepochs
  rcases hepochs with ⟨hsearch, hrest⟩
  have hlength₁ : n ≤ (epochs.take n).length := by
    rw [List.length_take]
    omega
  have hlength₂ : RoutingTable.succListSize ≤ (epochs.drop n).length + 1 := by
    simp only [List.length_drop, RoutingTable.succListSize]
    omega
  rcases h.epoch_notice hs sha256 hfirst with ⟨net₁, hexec₁, hsame₁, h₁⟩
  rw [← hsame₁.endpoints_eq] at hsearch hp
  rcases h₁.exec_search hp sha256 _ hsearch hlength₁ with ⟨net₂, hexec₂, hsame₂, h₂⟩
  have hsame := hsame₁.trans hsame₂
  rw [← hsame.endpoints_eq] at hrest
  rcases h₂.exec_epochs sha256 _ hrest hlength₂ with ⟨net₃, hexec₃, hsame₃, h₃⟩
  refine ⟨net₃, ?_, hsame.trans hsame₃, h₃⟩
  rw [List.flatten_cons, List.flatten_append]
  exact Run.exec_trans hexec₁ (Run.exec_trans hexec₂ hexec₃)

end Repairing

end Epochs

section Walk

variable {α : Type u} {R : α → α → Prop} {a z x y : α} {l : List α}

theorem exists_next_of_isChain (h : (a :: (l ++ [z])).IsChain R) (hx : x ∈ a :: l) :
    ∃ y ∈ l ++ [z], R x y := by
  induction l generalizing a with
  | nil => simp_all
  | cons b l ih =>
    rw [List.cons_append, List.isChain_cons_cons] at h
    rcases List.mem_cons.mp hx with rfl | hx
    . exact ⟨b, by simp, h.1⟩
    . rcases ih h.2 hx with ⟨y, hy, hxy⟩
      exact ⟨y, List.mem_cons_of_mem b hy, hxy⟩

theorem exists_prev_of_isChain (h : (a :: (l ++ [z])).IsChain R) (hy : y ∈ l ++ [z]) :
    ∃ x ∈ a :: l, R x y := by
  induction l generalizing a with
  | nil => simp_all
  | cons b l ih =>
    rw [List.cons_append, List.isChain_cons_cons] at h
    rcases List.mem_cons.mp hy with rfl | hy
    . exact ⟨a, List.mem_cons_self, h.1⟩
    . rcases ih h.2 hy with ⟨x, hx, hxy⟩
      exact ⟨x, List.mem_cons_of_mem a hx, hxy⟩

end Walk

section Start

variable {net : Network} {gone : Finset Endpoint} {p q s : Peer} {dead : List Peer}

theorem crash_isMember_iff : (net.crash gone).IsMember q ↔ net.IsMember q ∧ q.endpoint ∉ gone := by
  simp only [IsMember, crash, Finset.mem_sdiff]
  tauto

theorem WellFormed.crash (hnet : net.WellFormed) (gone : Finset Endpoint) :
    (net.crash gone).WellFormed := by
  have hmem {e : Endpoint} (he : e ∈ (net.crash gone).endpoints) : e ∈ net.endpoints :=
    (Finset.mem_sdiff.mp he).1
  exact ⟨fun e he => hnet.self_eq e (hmem he), fun e he => hnet.endpoint_selfAt e (hmem he),
    fun e he e' he' => hnet.eq_of_id_eq e (hmem he) e' (hmem he')⟩

/--
Members in a row: all those between `p` and `s` are about to crash. At least two nodes are left, and
the list of `p` goes past the gap.
-/
structure Outage (net : Network) (p : Peer) (dead : List Peer) (s : Peer) : Prop where
  isMember : ∀ q ∈ p :: (dead ++ [s]), net.IsMember q
  isChain : (p :: (dead ++ [s])).IsChain (fun x y => Clockwise.IsNext net.ids x.id y.id)
  nodup : (p :: (dead ++ [s])).Nodup
  ne_nil : dead ≠ []
  length_le : dead.length + 2 ≤ RoutingTable.succListSize

def endpointsOf (peers : List Peer) : Finset Endpoint :=
  (peers.map Peer.endpoint).toFinset

theorem endpoint_mem_endpointsOf {peers : List Peer} (hq : net.IsMember q)
    (hpeers : ∀ d ∈ peers, net.IsMember d) : q.endpoint ∈ endpointsOf peers ↔ q ∈ peers := by
  simp only [endpointsOf, List.mem_toFinset, List.mem_map]
  constructor
  . rintro ⟨d, hd, heq⟩
    rw [← (hpeers d hd).eq_of_endpoint_eq hq heq]
    exact hd
  . exact fun hmem => ⟨q, hmem, rfl⟩

namespace Outage

theorem isMember_predecessor (h : net.Outage p dead s) : net.IsMember p :=
  h.isMember p List.mem_cons_self

theorem isMember_successor (h : net.Outage p dead s) : net.IsMember s :=
  h.isMember s (by simp)

theorem isMember_dead (h : net.Outage p dead s) {d : Peer} (hd : d ∈ dead) : net.IsMember d :=
  h.isMember d (by simp [hd])

theorem predecessor_not_mem (h : net.Outage p dead s) : p ∉ dead :=
  fun hp => (List.nodup_cons.mp h.nodup).1 (List.mem_append_left _ hp)

theorem successor_not_mem (h : net.Outage p dead s) : s ∉ dead := by
  intro hs
  exact List.disjoint_of_nodup_append (List.nodup_cons.mp h.nodup).2 hs (List.mem_singleton_self s)

theorem predecessor_ne_successor (h : net.Outage p dead s) : p ≠ s := by
  rintro rfl
  exact (List.nodup_cons.mp h.nodup).1 (by simp)

theorem isMember_iff (h : net.Outage p dead s) :
    (net.crash (endpointsOf dead)).IsMember q ↔ net.IsMember q ∧ q ∉ dead := by
  rw [crash_isMember_iff]
  apply and_congr_right
  intro hq
  rw [endpoint_mem_endpointsOf hq fun d hd => h.isMember_dead hd]

theorem ids_eq (h : net.Outage p dead s) (hnet : net.WellFormed) :
    (net.crash (endpointsOf dead)).ids = net.ids \ (dead.map Peer.id).toFinset := by
  ext id
  rw [(hnet.crash _).mem_ids, Finset.mem_sdiff, hnet.mem_ids]
  simp only [h.isMember_iff, List.mem_toFinset, List.mem_map]
  constructor
  . rintro ⟨q, ⟨hq, hdead⟩, rfl⟩
    refine ⟨⟨q, hq, rfl⟩, ?_⟩
    rintro ⟨d, hd, heq⟩
    exact hdead (hnet.eq_of_mem_of_id_eq (h.isMember_dead hd) hq heq ▸ hd)
  . rintro ⟨⟨q, hq, rfl⟩, hnone⟩
    exact ⟨q, ⟨hq, fun hd => hnone ⟨q, hd, rfl⟩⟩, rfl⟩

theorem ids_subset (net : Network) (gone : Finset Endpoint) : (net.crash gone).ids ⊆ net.ids := by
  exact Finset.image_subset_image Finset.sdiff_subset

theorem not_mem_of_isNext_left (h : net.Outage p dead s) (hnet : net.WellFormed) {x y : Peer}
    (hy : net.IsMember y) (hnext : Clockwise.IsNext net.ids x.id y.id) (hdead : y ∉ dead)
    (hne : y ≠ s) : x ∉ dead := by
  intro hx
  rcases exists_next_of_isChain h.isChain (List.mem_cons_of_mem p hx) with ⟨z, hz, hnext'⟩
  have hzy := hnet.eq_of_mem_of_id_eq (h.isMember z (List.mem_cons_of_mem p hz)) hy
    (hnext'.unique hnext)
  subst hzy
  rcases List.mem_append.mp hz with hz | hz
  . exact hdead hz
  . exact hne (List.mem_singleton.mp hz)

theorem not_mem_of_isNext_right (h : net.Outage p dead s) (hnet : net.WellFormed) {x y : Peer}
    (hx : net.IsMember x) (hnext : Clockwise.IsNext net.ids x.id y.id) (hdead : x ∉ dead)
    (hne : x ≠ p) : y ∉ dead := by
  intro hy
  rcases exists_prev_of_isChain h.isChain (List.mem_append_left [s] hy) with ⟨z, hz, hnext'⟩
  have hz' : z ∈ p :: (dead ++ [s]) := by
    rw [← List.cons_append]
    exact List.mem_append_left [s] hz
  have hzx := hnet.eq_of_isNext (h.isMember z hz') hx hnext' hnext
  subst hzx
  rcases List.mem_cons.mp hz with hz | hz
  . exact hne hz
  . exact hdead hz

theorem isNext (h : net.Outage p dead s) (hnet : net.WellFormed) :
    Clockwise.IsNext (net.crash (endpointsOf dead)).ids p.id s.id := by
  rw [h.ids_eq hnet]
  apply Clockwise.isNext_of_path
  . have hchain := List.isChain_map_of_isChain Peer.id (S := Clockwise.IsNext net.ids)
      (fun _ _ hxy => hxy) h.isChain
    simpa using hchain
  . have hinj : ((dead ++ [s]).map Peer.id).Nodup := by
      apply List.Nodup.map_on
      . intro x hx y hy heq
        exact hnet.eq_of_mem_of_id_eq (h.isMember x (List.mem_cons_of_mem p hx))
          (h.isMember y (List.mem_cons_of_mem p hy)) heq
      . exact (List.nodup_cons.mp h.nodup).2
    simpa using hinj

theorem linkedBut (h : net.Outage p dead s) (hnet : net.Ideal) :
    (net.crash (endpointsOf dead)).LinkedBut {s.endpoint} {p.endpoint} := by
  have hmem {e : Endpoint} (he : e ∈ (net.crash (endpointsOf dead)).endpoints) :
      e ∈ net.endpoints ∧ net.selfAt e ∉ dead := by
    have hself := (hnet.crash (endpointsOf dead)).isMember_selfAt he
    have hself' := h.isMember_iff.mp hself
    exact ⟨(Finset.mem_sdiff.mp he).1, hself'.2⟩
  refine ⟨hnet.crash _, ?_, ?_, ?_, ?_⟩
  . exact fun e he => hnet.id_ne e (hmem he).1
  . exact fun e he => hnet.successorList_ne_nil (hmem he).1
  . intro e he hne
    rcases hmem he with ⟨he', hself⟩
    rcases hnet.exists_neighbours he' with ⟨x, _, hn⟩
    have hself' := hnet.isMember_selfAt he'
    have hes : net.selfAt e ≠ s := by
      rintro rfl
      exact hne (hnet.endpoint_selfAt e he').symm
    have hx := h.isMember_iff.mpr ⟨hn.isMember_predecessor,
      h.not_mem_of_isNext_left hnet.toWellFormed hself' hn.isNext_predecessor hself hes⟩
    refine ⟨x, hn.predecessor_eq, hx, hn.isNext_predecessor.mono (ids_subset net _) ?_⟩
    exact (h.isMember_iff.mpr ⟨hself', hself⟩).id_mem_ids
  . intro e he hne
    rcases hmem he with ⟨he', hself⟩
    rcases hnet.exists_neighbours he' with ⟨_, y, hn⟩
    have hself' := hnet.isMember_selfAt he'
    have hep : net.selfAt e ≠ p := by
      rintro rfl
      exact hne (hnet.endpoint_selfAt e he').symm
    have hy := h.isMember_iff.mpr ⟨hn.isMember_successor,
      h.not_mem_of_isNext_right hnet.toWellFormed hself' hn.isNext_successor hself hep⟩
    exact ⟨y, hn.successor_eq, hy, hn.isNext_successor.mono (ids_subset net _) hy.id_mem_ids⟩

theorem exists_successorList_eq (h : net.Outage p dead s) (hnet : net.Ideal) {t : Peer}
    (ht : net.IsMember t) (hnext : Clockwise.IsNext net.ids s.id t.id) :
    ∃ rest, (net.table p.endpoint).successorList = dead ++ s :: t :: rest := by
  have hunique (x y z : Peer) (hy : net.IsMember y) (hz : net.IsMember z)
      (hxy : Clockwise.IsNext net.ids x.id y.id) (hxz : Clockwise.IsNext net.ids x.id z.id) :
      y = z :=
    hnet.eq_of_mem_of_id_eq hy hz (hxy.unique hxz)
  have hp := h.isMember_predecessor
  have hchain := hnet.isChain p.endpoint hp.1
  rw [hp.selfAt_eq] at hchain
  have hwalk : (p :: (dead ++ [s, t])).IsChain (fun x y => Clockwise.IsNext net.ids x.id y.id) := by
    have hsplit : p :: (dead ++ [s, t]) = ((p :: dead) ++ [s]) ++ [t] := by simp
    rw [hsplit, List.isChain_append]
    refine ⟨h.isChain, List.isChain_singleton t, ?_⟩
    intro x hx y hy
    rw [List.getLast?_concat, Option.mem_some] at hx
    rw [List.head?_singleton, Option.mem_some] at hy
    rw [← hx, ← hy]
    exact hnext
  have hmem : ∀ q ∈ dead ++ [s, t], net.IsMember q := by
    intro q hq
    simp only [List.mem_append, List.mem_cons, List.not_mem_nil, or_false] at hq
    rcases hq with hq | rfl | rfl
    . exact h.isMember_dead hq
    . exact h.isMember_successor
    . exact ht
  have hprefix : dead ++ [s, t] <+: (net.table p.endpoint).successorList := by
    refine prefix_of_isChain hunique hwalk hchain hmem (hnet.isMember p.endpoint hp.1) ?_
    have hsize := hnet.size_eq p.endpoint hp.1
    have hlength := h.length_le
    simp only [RoutingTable.size] at hsize
    rw [hsize]
    simpa using hlength
  rcases hprefix with ⟨rest, hrest⟩
  exact ⟨rest, by rw [← hrest]; simp⟩

theorem predecessor_gone (h : net.Outage p dead s) (hnet : net.Ideal) {d : Peer}
    (hd : (net.table s.endpoint).predecessor = some d) :
    d ∈ dead ∧ Clockwise.Between p.id d.id s.id := by
  have hs := h.isMember_successor
  have hp := h.isMember_predecessor
  rcases hnet.predecessor s.endpoint hs.1 with ⟨d', hd', hmem, hnext⟩
  rw [RoutingTable.tryGetPredecessor, hd, Option.some.injEq] at hd'
  subst hd'
  rw [hs.selfAt_eq] at hnext
  have hdp : p ≠ d := by
    rintro rfl
    rcases List.exists_cons_of_ne_nil h.ne_nil with ⟨x, rest, hdead⟩
    have hchain := h.isChain
    rw [hdead, List.cons_append, List.isChain_cons_cons] at hchain
    have hx : x ∈ dead := by simp [hdead]
    have := hnet.eq_of_mem_of_id_eq (h.isMember_dead hx) hs (hchain.1.unique hnext)
    exact h.successor_not_mem (this ▸ hx)
  have hdead : d ∈ dead := by
    rcases exists_prev_of_isChain h.isChain (List.mem_append_right dead
      (List.mem_singleton_self s)) with ⟨x, hx, hxs⟩
    have hx' : x ∈ p :: (dead ++ [s]) := by
      rw [← List.cons_append]
      exact List.mem_append_left [s] hx
    have := hnet.eq_of_isNext (h.isMember x hx') hmem hxs hnext
    subst this
    exact (List.mem_cons.mp hx).resolve_left hdp.symm
  refine ⟨hdead, hnext.between_left hp.id_mem_ids ?_⟩
  intro heq
  exact hdp (hnet.eq_of_mem_of_id_eq hp hmem heq)

theorem recovering (h : net.Outage p dead s) (hnet : net.Ideal) :
    ∃ t, Recovering dead p s t false (dead.length + 2) (net.crash (endpointsOf dead)) := by
  have hp := h.isMember_predecessor
  have hs := h.isMember_successor
  rcases hnet.exists_neighbours hs.1 with ⟨_, t, hn⟩
  have hnext := hn.isNext_successor
  rw [hs.selfAt_eq] at hnext
  have ht := hn.isMember_successor
  have hps : s ≠ p := h.predecessor_ne_successor.symm
  have htdead := h.not_mem_of_isNext_right hnet.toWellFormed hs hnext h.successor_not_mem hps
  have ht' := h.isMember_iff.mpr ⟨ht, htdead⟩
  rcases h.exists_successorList_eq hnet ht hnext with ⟨rest, hlist⟩
  refine ⟨t, h.linkedBut hnet, ⟨?_, ?_, ht', h.isNext hnet.toWellFormed, ?_⟩, ?_, ?_, ?_, ?_, ?_⟩
  . exact h.isMember_iff.mpr ⟨hp, h.predecessor_not_mem⟩
  . exact h.isMember_iff.mpr ⟨hs, h.successor_not_mem⟩
  . exact hnext.mono (ids_subset net _) ht'.id_mem_ids
  . exact fun heq => hps (hs.eq_of_endpoint_eq hp heq)
  . intro heq
    have hst := hs.eq_of_endpoint_eq ht heq
    rw [← hst] at hnext
    -- only on a ring of one node is a node followed by itself
    have hself := hnext.2 p.id hp.id_mem_ids
    rw [Clockwise.Between.self_iff] at hself
    exact hself fun heq' => hps (hnet.eq_of_mem_of_id_eq hs hp heq'.symm)
  . intro d hd hmem
    have := (Finset.mem_sdiff.mp hmem).2
    exact this
      ((endpoint_mem_endpointsOf (h.isMember_dead hd) fun d hd => h.isMember_dead hd).mpr hd)
  . exact fun d hd => ⟨rfl, h.predecessor_gone hnet hd⟩
  . exact .searching (fun _ hd => hd) hlist le_rfl

theorem exec_epochs (h : net.Outage p dead s) (hnet : net.Ideal) (sha256 : String → String)
    (epochs : List (List Round))
    (hepochs : ∀ rounds ∈ epochs, IsEpoch (net.crash (endpointsOf dead)).endpoints rounds)
    (hlength : dead.length + 2 + RoutingTable.succListSize ≤ epochs.length) :
    ∃ net', Run.exec (Network.round sha256) (net.crash (endpointsOf dead)) epochs.flatten
      = some net'
      ∧ (net.crash (endpointsOf dead)).SameNodes net' ∧ net'.Ideal := by
  rcases h.recovering hnet with ⟨t, hrec⟩
  have hrep : Repairing dead p s t false (dead.length + 2) (net.crash (endpointsOf dead)) :=
    Or.inr hrec
  exact hrep.exec_epochs hrec.consecutive.isMember_left.1 hrec.consecutive.isMember_middle.1
    sha256 epochs hepochs hlength

end Outage

end Start

/--
At least two nodes are left after up to eight in a row have crashed. However the survivors take
their rounds, the ring closes and becomes ideal again, with just them in it.
-/
theorem crash_recovers {net : Network} (hnet : net.Ideal) (sha256 : String → String) {p s : Peer}
    {dead : List Peer} (houtage : net.Outage p dead s) (epochs : List (List Round))
    (hepochs : ∀ rounds ∈ epochs, IsEpoch (net.endpoints \ endpointsOf dead) rounds)
    (hlength : dead.length + 2 + RoutingTable.succListSize ≤ epochs.length) :
    ∃ net', Run.exec (round sha256) (net.crash (endpointsOf dead)) epochs.flatten = some net'
      ∧ net'.Ideal
      ∧ net'.endpoints = net.endpoints \ endpointsOf dead
      ∧ ∀ q, net'.IsMember q ↔ net.IsMember q ∧ q ∉ dead := by
  rcases houtage.exec_epochs hnet sha256 epochs hepochs hlength with ⟨net', hexec, hsame, hideal⟩
  refine ⟨net', hexec, hideal, hsame.endpoints_eq, ?_⟩
  intro q
  rw [hsame.isMember_iff, houtage.isMember_iff]

theorem threeNodes_outage : threeNodes.Outage nodeA [nodeB] nodeC := by
  have hnext := threeNodes_isNext
  refine ⟨by decide, ?_, by decide, by decide, by decide⟩
  simp [hnext.1, hnext.2.1]

theorem crash_recovers_threeNodes :
    let out : Nat → Outside := fun _ =>
      ⟨"t1", "t2", ⟨0, "10.0.0.1"⟩, fun _ => ⟨⟨0, "10.0.0.1"⟩, "t3", "t4"⟩⟩
    let epoch := epochOf [nodeA.endpoint, nodeC.endpoint] out
    ∃ net', Run.exec (round fun _ => nodeA.id) (threeNodes.crash (endpointsOf [nodeB]))
        (List.replicate 13 epoch).flatten = some net'
      ∧ net'.Ideal ∧ ¬ net'.IsMember nodeB := by
  intro out epoch
  have hends : threeNodes.endpoints \ endpointsOf [nodeB]
      = [nodeA.endpoint, nodeC.endpoint].toFinset := by decide
  rcases crash_recovers threeNodes_ideal (fun _ => nodeA.id) threeNodes_outage
    (List.replicate 13 epoch) (hends ▸ isEpoch_of_mem_replicate) (by decide) with
      ⟨net', hexec, hideal, _, hmem⟩
  exact ⟨net', hexec, hideal, fun h => ((hmem nodeB).mp h).2 List.mem_cons_self⟩

end Network

end Peerpaste
