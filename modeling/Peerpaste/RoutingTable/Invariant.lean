import Peerpaste.RoutingTable.Basic
import Peerpaste.Run.Basic

/-!
This module contains the lemmas about the successor list of a routing table and its representation
invariant: the list has between one and ten entries and all of them are peers that were passed in.
-/

namespace Peerpaste

namespace RoutingTable

section Resize

variable {T : Type} [Inhabited T]

@[simp]
theorem resize_length (l : List T) : (resize l).length = succListSize := by
  unfold resize
  rw [List.takeD_length]

theorem resize_ne_nil (l : List T) : resize l ≠ [] := by
  apply List.ne_nil_of_length_pos
  rw [resize_length]
  decide

theorem resize_eq_take {l : List T} (h : succListSize ≤ l.length) :
    resize l = l.take succListSize := by
  unfold resize
  rw [List.takeD_eq_take _ h]

theorem take_takeD {l : List T} {n k : Nat} (hk : k ≤ n) (hlength : k ≤ l.length) :
    (l.takeD n default).take k = l.take k := by
  induction k generalizing l n with
  | zero => simp
  | succ k ih =>
    cases n with
    | zero => omega
    | succ n =>
      cases l with
      | nil => simp at hlength
      | cons p l =>
        rw [List.takeD_succ, List.take_succ_cons, List.take_succ_cons]
        congr 1
        exact ih (Nat.le_of_succ_le_succ hk) (Nat.le_of_succ_le_succ hlength)

theorem take_resize {l : List T} {k : Nat} (hk : k ≤ succListSize) (hlength : k ≤ l.length) :
    (resize l).take k = l.take k :=
  take_takeD hk hlength

theorem mem_of_mem_resize {l : List T} {p : T} (h : succListSize ≤ l.length) (hp : p ∈ resize l) :
    p ∈ l := by
  rw [resize_eq_take h] at hp
  exact List.mem_of_mem_take hp

theorem head?_resize_cons (p : T) (l : List T) : (resize (p :: l)).head? = some p := by
  unfold resize succListSize
  rw [List.takeD_succ]
  rfl

theorem exists_resize_cons_cons (p q : T) (l : List T) :
    ∃ rest, resize (p :: q :: l) = p :: q :: rest := by
  unfold resize succListSize
  rw [List.takeD_succ, List.takeD_succ]
  exact ⟨_, rfl⟩

theorem default_mem_takeD {l : List T} {n : Nat} (h : l.length < n) :
    default ∈ l.takeD n default := by
  induction n generalizing l with
  | zero => omega
  | succ n ih =>
    cases l with
    | nil => simp
    | cons p l =>
      simp only [List.takeD_succ, List.tail_cons, List.mem_cons]
      right
      apply ih
      simpa using h

theorem default_mem_resize {l : List T} (h : l.length < succListSize) : default ∈ resize l := by
  exact default_mem_takeD h

theorem mem_takeD_append {l old : List T} {n : Nat} {p : T} (hp : p ∈ old.take (n - l.length)) :
    p ∈ (l ++ old).takeD n default := by
  induction n generalizing l old with
  | zero => simp at hp
  | succ n ih =>
    cases l with
    | cons q l =>
      simp only [List.length_cons, Nat.add_sub_add_right] at hp
      simp [ih hp]
    | nil =>
      cases old with
      | nil => simp at hp
      | cons q old =>
        simp only [List.length_nil, Nat.sub_zero, List.take_succ_cons, List.mem_cons] at hp
        simp only [List.nil_append, List.takeD_succ, List.head?_cons, Option.getD_some,
          List.tail_cons, List.mem_cons]
        exact hp.imp_right fun hp => ih (l := []) (by simpa using hp)

def ReplacesRest (rt : RoutingTable T) (newSuccList : List T) : Prop :=
  ∀ successor old, rt.successorList = successor :: old →
    ∃ rt', rt.replaceAfterSuccessor newSuccList = some rt'
      ∧ rt'.getPeers = (successor :: newSuccList).take succListSize
      ∧ ∀ p ∈ old, p ≠ successor → p ∉ newSuccList → p ∉ rt'.getPeers

theorem replaceAfterSuccessor_getPeers {rt : RoutingTable T} {successor : T} {old : List T}
    (heq : rt.successorList = successor :: old) (newSuccList : List T) :
    ∃ rt', rt.replaceAfterSuccessor newSuccList = some rt'
      ∧ rt'.getPeers = resize (successor :: (newSuccList ++ old)) := by
  unfold replaceAfterSuccessor
  rw [heq]
  exact ⟨_, rfl, rfl⟩

theorem mem_replaceAfterSuccessor {rt rt' : RoutingTable T} {successor p : T}
    {old newSuccList : List T} (heq : rt.successorList = successor :: old)
    (h : rt.replaceAfterSuccessor newSuccList = some rt')
    (hp : p ∈ old.take (succListSize - (successor :: newSuccList).length)) : p ∈ rt'.getPeers := by
  rcases replaceAfterSuccessor_getPeers heq newSuccList with ⟨rt'', h', hpeers⟩
  rw [h, Option.some.injEq] at h'
  rw [h', hpeers]
  exact mem_takeD_append hp

theorem replacesRest_iff (rt : RoutingTable T) (successor : T) (old newSuccList : List T) :
    ReplacesRest { rt with successorList := successor :: old } newSuccList
      ↔
    succListSize ≤ (successor :: newSuccList).length := by
  have hlist : { rt with successorList := successor :: old }.successorList = successor :: old := rfl
  rcases replaceAfterSuccessor_getPeers hlist newSuccList with ⟨rt', hreplace, hpeers⟩
  constructor
  . intro h
    rcases h successor old rfl with ⟨rt'', hreplace', hpeers', _⟩
    rw [hreplace, Option.some.injEq] at hreplace'
    rw [← hreplace', hpeers] at hpeers'
    have hlength := congrArg List.length hpeers'
    rw [resize_length, List.length_take] at hlength
    omega
  . intro hle successor' old' heq
    cases heq
    have htake : rt'.getPeers = (successor :: newSuccList).take succListSize := by
      rw [hpeers, resize_eq_take (by simp at hle ⊢; omega), ← List.cons_append,
        List.take_append_of_le_length hle]
    refine ⟨rt', hreplace, htake, ?_⟩
    intro p _ hne hnew hmem
    rw [htake] at hmem
    rcases List.mem_cons.mp (List.mem_of_mem_take hmem) with heq | hmem
    . exact hne heq
    . exact hnew hmem

/--
The successor list is full when the list comes that a `Join` has asked for, with one peer in it.
-/
theorem not_replacesRest_ofOne :
    let peer (id : String) : Peer := ⟨id, "10.0.0." ++ id, "6100"⟩
    let rest := ["2", "3", "4", "5", "6", "7", "8", "9", "10"].map peer
    ¬ ReplacesRest { successorList := peer "1" :: rest } [peer "11"] := by
  intro peer rest h
  rcases h (peer "1") rest rfl with ⟨rt', hreplace, _, hstale⟩
  apply hstale (peer "2") (by decide) (by decide) (by decide)
  exact mem_replaceAfterSuccessor rfl hreplace (by decide)

end Resize

section Grows

variable {T : Type}

structure Grows (rt rt' : RoutingTable T) : Prop where
  predecessor_eq : rt'.predecessor = rt.predecessor
  size_le : rt.size ≤ succListSize → rt.size ≤ rt'.size ∧ rt'.size ≤ succListSize

namespace Grows

variable {rt rt' rt'' : RoutingTable T}

theorem refl (rt : RoutingTable T) : rt.Grows rt :=
  ⟨rfl, fun h => ⟨Nat.le_refl _, h⟩⟩

theorem setSelf (rt : RoutingTable T) (self : T) : rt.Grows (rt.setSelf self) :=
  ⟨rfl, fun h => ⟨Nat.le_refl _, h⟩⟩

theorem setSuccessor (rt : RoutingTable T) (successor : T) :
    rt.Grows (rt.setSuccessor successor) := by
  constructor
  . unfold RoutingTable.setSuccessor
    split
    . rfl
    . rfl
  . intro h
    unfold RoutingTable.setSuccessor size at *
    split
    . next heq => simp [heq, succListSize]
    . next heq => simpa [heq] using h

theorem replaceSuccessorList [Inhabited T] (rt : RoutingTable T) (l : List T) :
    rt.Grows (rt.replaceSuccessorList l) := by
  refine ⟨rfl, ?_⟩
  intro h
  simpa [size, RoutingTable.replaceSuccessorList] using h

theorem replaceAfterSuccessor [Inhabited T] {l : List T}
    (h : rt.replaceAfterSuccessor l = some rt') :
    rt.Grows rt' := by
  unfold RoutingTable.replaceAfterSuccessor at h
  split at h
  . cases h
  . cases h
    refine ⟨rfl, ?_⟩
    intro h
    simpa [size] using h

theorem trans (h : rt.Grows rt') (h' : rt'.Grows rt'') : rt.Grows rt'' := by
  refine ⟨h'.predecessor_eq.trans h.predecessor_eq, ?_⟩
  intro hle
  rcases h.size_le hle with ⟨hsize, hle'⟩
  rcases h'.size_le hle' with ⟨hsize', hle''⟩
  exact ⟨hsize.trans hsize', hle''⟩

end Grows

@[simp]
theorem popFront_predecessor (rt : RoutingTable T) : rt.popFront.predecessor = rt.predecessor := by
  unfold popFront
  split
  . rfl
  . rfl

theorem popFront_size_le (rt : RoutingTable T) : rt.popFront.size ≤ rt.size := by
  unfold popFront size
  split
  . exact Nat.le_refl _
  . simp only [List.length_tail]
    omega

theorem popFront_size_lt_iff (rt : RoutingTable T) :
    rt.popFront.size < rt.size ↔ ¬ rt.size ≤ 1 := by
  unfold popFront size
  split
  . simp [*]
  . simp only [List.length_tail]
    omega

end Grows

section Call

variable {T : Type}

inductive Call (T : Type) where
  | setSuccessor (successor : T)
  | replaceSuccessorList (newSuccList : List T)
  | replaceAfterSuccessor (newSuccList : List T)
  | popFront
  deriving DecidableEq, Repr

def Call.peers : Call T → List T
  | .setSuccessor successor => [successor]
  | .replaceSuccessorList newSuccList => newSuccList
  | .replaceAfterSuccessor newSuccList => newSuccList
  | .popFront => []

def call [Inhabited T] (rt : RoutingTable T) : Call T → Option (RoutingTable T)
  | .setSuccessor successor => some (rt.setSuccessor successor)
  | .replaceSuccessorList newSuccList => some (rt.replaceSuccessorList newSuccList)
  | .replaceAfterSuccessor newSuccList => rt.replaceAfterSuccessor newSuccList
  | .popFront => some rt.popFront

def init (self : T) : RoutingTable T :=
  (({} : RoutingTable T).setSelf self).setSuccessor self

structure Represented (passed : List T) (rt : RoutingTable T) : Prop where
  size_pos : 1 ≤ rt.size
  size_le : rt.size ≤ succListSize
  mem_passed : ∀ p ∈ rt.getPeers, p ∈ passed

def NoPadding (rt : RoutingTable T) : Call T → Prop
  | .setSuccessor _ => True
  | .replaceSuccessorList newSuccList => succListSize ≤ newSuccList.length
  | .replaceAfterSuccessor newSuccList => succListSize ≤ rt.size + newSuccList.length
  | .popFront => True

namespace Represented

variable {passed : List T} {rt : RoutingTable T}

theorem exists_successor (h : Represented passed rt) :
    ∃ successor tail, rt.successorList = successor :: tail := by
  have := h.size_pos
  unfold size at this
  exact List.exists_cons_of_length_pos this

theorem tryGetSuccessor_isSome (h : Represented passed rt) : rt.tryGetSuccessor.isSome := by
  rcases h.exists_successor with ⟨successor, tail, heq⟩
  simp [tryGetSuccessor, heq]

theorem setSuccessor (h : Represented passed rt) (p : T) :
    Represented (passed ++ [p]) (rt.setSuccessor p) := by
  rcases h.exists_successor with ⟨successor, tail, heq⟩
  rcases h with ⟨hpos, hle, hmem⟩
  simp only [size, getPeers, heq] at hpos hle hmem
  constructor
  case size_pos => simp [RoutingTable.setSuccessor, heq, size]
  case size_le => simpa [RoutingTable.setSuccessor, heq, size] using hle
  case mem_passed =>
    simp only [RoutingTable.setSuccessor, heq, getPeers, List.mem_cons, List.mem_append,
      List.not_mem_nil, or_false]
    rintro q (rfl | hq)
    . exact Or.inr rfl
    . exact Or.inl (hmem q (List.mem_cons_of_mem _ hq))

theorem popFront (h : Represented passed rt) : Represented passed rt.popFront := by
  unfold RoutingTable.popFront
  split
  . exact h
  . next hsize =>
    constructor
    case size_pos =>
      simp only [size, List.length_tail]
      omega
    case size_le =>
      have := h.size_le
      simp only [size, List.length_tail] at *
      omega
    case mem_passed =>
      intro p hp
      exact h.mem_passed p (List.mem_of_mem_tail hp)

variable [Inhabited T]

theorem resize_iff {l : List T} (hl : ∀ p ∈ l, p ∈ passed) (hdefault : default ∉ passed) :
    succListSize ≤ l.length ↔ Represented passed { rt with successorList := resize l } := by
  -- a list that `resize` made is represented exactly if there was nothing to fill up
  constructor
  . intro hle
    constructor
    . simp [size, succListSize]
    . simp [size]
    . intro p hp
      exact hl p (mem_of_mem_resize hle hp)
  . intro h
    by_contra hlt
    simp only [Nat.not_le] at hlt
    exact hdefault (h.mem_passed default (default_mem_resize hlt))

theorem call_iff (h : Represented passed rt) (c : Call T) (hdefault : default ∉ passed ++ c.peers) :
    ∃ rt', rt.call c = some rt' ∧ (NoPadding rt c ↔ Represented (passed ++ c.peers) rt') := by
  cases c with
  | setSuccessor p => exact ⟨_, rfl, by simp [NoPadding, h.setSuccessor p, Call.peers]⟩
  | popFront => exact ⟨_, rfl, by simp [NoPadding, h.popFront, Call.peers]⟩
  | replaceSuccessorList l =>
    refine ⟨_, rfl, ?_⟩
    apply resize_iff
    . intro p hp
      exact List.mem_append_right _ hp
    . exact hdefault
  | replaceAfterSuccessor l =>
    rcases h.exists_successor with ⟨successor, tail, heq⟩
    refine ⟨{ rt with successorList := resize (successor :: (l ++ tail)) }, ?_, ?_⟩
    . simp only [call, replaceAfterSuccessor, heq]
    . have hpad : NoPadding rt (.replaceAfterSuccessor l)
          ↔ succListSize ≤ (successor :: (l ++ tail)).length := by
        simp only [NoPadding, size, heq, List.length_cons, List.length_append]
        omega
      rw [hpad]
      apply resize_iff
      . intro p hp
        simp only [List.mem_cons, List.mem_append] at hp
        have hmem := h.mem_passed
        simp only [getPeers, heq, List.mem_cons] at hmem
        rcases hp with rfl | hp | hp
        . exact List.mem_append_left _ (hmem p (Or.inl rfl))
        . exact List.mem_append_right _ hp
        . exact List.mem_append_left _ (hmem p (Or.inr hp))
      . exact hdefault

end Represented

end Call

section Peer

theorem isValid_default : (default : Peer).isValid = false := by
  decide

theorem init_represented (self : Peer) : Represented [self] (init self) := by
  constructor
  case size_pos => simp [init, setSelf, setSuccessor, size]
  case size_le => simp [init, setSelf, setSuccessor, size, succListSize]
  case mem_passed => simp [init, setSelf, setSuccessor, getPeers]

theorem mem_foldl_peers {p self : Peer} {calls : List (Call Peer)} :
    p ∈ calls.foldl (fun passed c => passed ++ c.peers) [self]
      ↔
    p = self ∨ ∃ c ∈ calls, p ∈ c.peers := by
  rw [List.foldl_append_eq_append]
  simp [List.mem_flatten]

/--
In all states of a sequence of calls the list has between one and `succListSize` entries, all of
them valid peers that were passed in before.
-/
def AlwaysRepresented (self : Peer) (calls : List (Call Peer)) : Prop :=
  ∀ pre, pre <+: calls →
    ∃ rt, Run.exec call (init self) pre = some rt
      ∧ 1 ≤ rt.size ∧ rt.size ≤ succListSize ∧ rt.tryGetSuccessor.isSome
      ∧ ∀ p ∈ rt.getPeers, (p = self ∨ ∃ c ∈ pre, p ∈ c.peers) ∧ p.isValid

def recordPeers : RoutingTable Peer → List Peer → Call Peer → List Peer :=
  fun _ passed c => passed ++ c.peers

def RepresentedValid (t : RoutingTable Peer × List Peer) : Prop :=
  Represented t.2 t.1 ∧ ∀ p ∈ t.2, p.isValid

theorem RepresentedValid.observe_iff {t : RoutingTable Peer × List Peer} (h : RepresentedValid t)
    (c : Call Peer) (hc : ∀ p ∈ c.peers, p.isValid) :
    ∃ t', Run.observe call recordPeers t c = some t'
      ∧ (NoPadding t.1 c ↔ RepresentedValid t') := by
  rcases t with ⟨rt, passed⟩
  rcases h with ⟨hrep, hvalid⟩
  have hall : ∀ p ∈ passed ++ c.peers, p.isValid := by
    intro p hp
    rcases List.mem_append.mp hp with hp | hp
    . exact hvalid p hp
    . exact hc p hp
  have hdefault : default ∉ passed ++ c.peers := by
    intro hmem
    have := hall default hmem
    simp [isValid_default] at this
  rcases hrep.call_iff c hdefault with ⟨rt', hcall, hiff⟩
  refine ⟨(rt', passed ++ c.peers), ?_, ?_⟩
  . rw [Run.observe_eq_some]
    exact ⟨hcall, rfl⟩
  . rw [hiff]
    exact ⟨fun h => ⟨h, hall⟩, fun h => h.1⟩

theorem represented_iff_noPadding (self : Peer) (hself : self.isValid) (calls : List (Call Peer))
    (hcalls : ∀ c ∈ calls, ∀ p ∈ c.peers, p.isValid) :
    AlwaysRepresented self calls ↔ Run.Along call NoPadding (init self) calls := by
  have hinit : RepresentedValid (init self, [self]) :=
    ⟨init_represented self, by simpa using hself⟩
  rw [← Run.along_observe recordPeers (init self) [self] calls]
  rw [Run.along_iff_reached (fun t c ht => ht.observe_iff c) hinit hcalls]
  unfold AlwaysRepresented
  apply forall_congr'
  intro pre
  apply imp_congr_right
  intro hpre
  have hexec := Run.exec_observe call recordPeers (init self) [self] pre
  constructor
  . rintro ⟨rt, hrt, hpos, hle, _, hmem⟩
    rw [hrt, Option.map_eq_some_iff] at hexec
    rcases hexec with ⟨t, ht, rfl⟩
    have hpassed := Run.exec_observe_snd ht
    refine ⟨t, ht, ⟨hpos, hle, ?_⟩, ?_⟩
    . intro p hp
      rw [hpassed, mem_foldl_peers]
      exact (hmem p hp).1
    . intro p hp
      rw [hpassed, mem_foldl_peers] at hp
      rcases hp with rfl | ⟨c, hc, hp⟩
      . exact hself
      . exact hcalls c (hpre.subset hc) p hp
  . rintro ⟨t, ht, hrep, hvalid⟩
    have hpassed := Run.exec_observe_snd ht
    rw [ht] at hexec
    refine ⟨t.1, hexec.symm, hrep.size_pos, hrep.size_le, hrep.tryGetSuccessor_isSome, ?_⟩
    intro p hp
    have hp := hrep.mem_passed p hp
    refine ⟨?_, hvalid p hp⟩
    rwa [hpassed, mem_foldl_peers] at hp

theorem represented_fullList :
    let self : Peer := ⟨"1", "10.0.0.1", "6100"⟩
    AlwaysRepresented self [.replaceSuccessorList (List.replicate 10 self), .popFront] := by
  intro self
  apply (represented_iff_noPadding self (by decide) _ (by decide)).mpr
  simp [Run.Along, NoPadding, succListSize]

/--
A list of one valid peer is filled up with peers that nobody passed in.
-/
theorem not_represented_shortList :
    let self : Peer := ⟨"1", "10.0.0.1", "6100"⟩
    let calls := [Call.replaceSuccessorList [self]]
    self.isValid ∧ (∀ c ∈ calls, ∀ p ∈ c.peers, p.isValid) ∧ ¬ AlwaysRepresented self calls := by
  intro self calls
  refine ⟨by decide, by decide, ?_⟩
  intro h
  rcases h calls List.prefix_rfl with ⟨rt, hrt, _, _, _, hmem⟩
  simp only [calls, Run.exec_cons, Run.exec_nil, call, Option.bind_some, Option.some.injEq] at hrt
  subst hrt
  have := (hmem default (by decide)).2
  simp [isValid_default] at this

end Peer

end RoutingTable

end Peerpaste
