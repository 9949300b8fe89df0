import Peerpaste.Network.Lookup
import Peerpaste.Order.Orbit
import Peerpaste.Run.Basic
import Peerpaste.Transfers.Basic

/-!
This module contains a broadcast on its way through a network whose nodes change their tables
meanwhile: that it dies out, and that it comes by every node of a ring.
-/

namespace Peerpaste

namespace BroadcastFilelist

def processes (rt : RoutingTable Peer) (request : RequestObject) : Bool :=
  match rt.tryGetSelf with
  | none => false
  | some self => !request.hasPassed self

section

variable {rt : RoutingTable Peer} {request : RequestObject} {self : Peer}

theorem handleRequest_of_hasPassed (t : Transfers) (transactionId : String)
    (fileTransactionId : FileInfo → String) (hself : rt.tryGetSelf = some self)
    (hpassed : request.hasPassed self = true) :
    handleRequest rt t request transactionId fileTransactionId = (t, .done, none) := by
  unfold RequestObject.hasPassed at hpassed
  simp [handleRequest, hself, hpassed]

theorem handleRequest_forwards (t : Transfers) (transactionId : String)
    (fileTransactionId : FileInfo → String) (hself : rt.tryGetSelf = some self)
    (hpassed : request.hasPassed self = false) :
    (handleRequest rt t request transactionId fileTransactionId).2.2
      = rt.tryGetSuccessor.map fun target =>
          ⟨{ Message.createRequest "broadcast_filelist" (request.message.peers ++ [self])
                transactionId with
              files := request.message.files }, .peer target⟩ := by
  unfold RequestObject.hasPassed at hpassed
  simp only [handleRequest, hself, hpassed, Bool.false_eq_true, ↓reduceIte]
  cases rt.tryGetSuccessor with
  | none => rfl
  | some target => rfl

end

end BroadcastFilelist

/--
One broadcast: `sent` is the list on its way, `received` are the nodes that it has come to,
`processed` those of them that were not in it yet, with what they got, and `forwarded` is everything
that has been sent.
-/
structure Broadcast where
  net : Network
  transfers : Endpoint → Transfers
  sent : Option RequestObject
  received : List Endpoint := []
  processed : List (Endpoint × RequestObject) := []
  forwarded : List RequestObject

namespace Broadcast

def start (net : Network) (transfers : Endpoint → Transfers) (origin : Endpoint)
    (transactionId : String) : Broadcast :=
  let sent :=
    (BroadcastFilelist.createRequest (net.table origin) (transfers origin).storage transactionId).2
  { net := net, transfers := transfers, sent := sent, forwarded := sent.toList }

def deliver (b : Broadcast) (session : Session) (transactionId : String)
    (fileTransactionId : FileInfo → String) : Option Broadcast := do
  let sent ← b.sent
  match sent.connection with
  | .session _ => none
  | .peer target =>
    let e := target.endpoint
    if e ∈ b.net.endpoints then
      let request : RequestObject := ⟨sent.message, .session session⟩
      let (t, _, sent) :=
        BroadcastFilelist.handleRequest (b.net.table e) (b.transfers e) request transactionId
          fileTransactionId
      some
        { net := b.net
          transfers := Function.update b.transfers e t
          sent := sent
          received := b.received ++ [e]
          processed :=
            if BroadcastFilelist.processes (b.net.table e) request then
              b.processed ++ [(e, request)]
            else
              b.processed
          forwarded := b.forwarded ++ sent.toList }
    else
      none

/--
Between two hops, a node gets any other table and store, but for the endpoint that it knows itself
by.
-/
inductive Event where
  | change (e : Endpoint) (rt : RoutingTable Peer) (t : Transfers)
  | deliver (session : Session) (transactionId : String) (fileTransactionId : FileInfo → String)
  | lose

def step (b : Broadcast) : Event → Option Broadcast
  | .change e rt t =>
    if rt.self.map Peer.endpoint = (b.net.table e).self.map Peer.endpoint then
      some { b with net := b.net.setTable e rt, transfers := Function.update b.transfers e t }
    else
      none
  | .deliver session transactionId fileTransactionId =>
    b.deliver session transactionId fileTransactionId
  | .lose => some { b with sent := none }

end Broadcast

namespace Network

def IsAddressed (net : Network) : Prop :=
  ∀ e ∈ net.endpoints, (net.table e).self.map Peer.endpoint = some e

structure FormsRing (net : Network) (next : Endpoint → Endpoint) : Prop where
  successor : ∀ e ∈ net.endpoints, (net.table e).tryGetSuccessor.map Peer.endpoint = some (next e)
  around : LeadsAround next net.endpoints

variable {net : Network} {next : Endpoint → Endpoint} {e : Endpoint} {rt : RoutingTable Peer}

instance (net : Network) : Decidable net.IsAddressed :=
  inferInstanceAs (Decidable (∀ e ∈ net.endpoints, _))

theorem IsAddressed.endpoint_eq (hnet : net.IsAddressed) {self : Peer} (he : e ∈ net.endpoints)
    (hself : (net.table e).self = some self) : self.endpoint = e := by
  have := hnet e he
  rw [hself, Option.map_some, Option.some.injEq] at this
  exact this

theorem IsAddressed.setTable (hnet : net.IsAddressed)
    (hself : rt.self.map Peer.endpoint = (net.table e).self.map Peer.endpoint) :
    (net.setTable e rt).IsAddressed := by
  intro e' he'
  by_cases heq : e' = e
  . rw [heq, setTable_table_self, hself]
    exact heq ▸ hnet e' he'
  . rw [setTable_table_of_ne heq]
    exact hnet e' he'

theorem FormsRing.setTable (h : net.FormsRing next)
    (hrt : rt.tryGetSuccessor.map Peer.endpoint = some (next e)) :
    (net.setTable e rt).FormsRing next := by
  refine ⟨?_, h.around⟩
  intro e' he'
  by_cases heq : e' = e
  . rw [heq, setTable_table_self]
    exact hrt
  . rw [setTable_table_of_ne heq]
    exact h.successor e' he'

end Network

namespace Broadcast

def Event.Follows (next : Endpoint → Endpoint) : Event → Prop
  | .change e rt _ => rt.tryGetSuccessor.map Peer.endpoint = some (next e)
  | .deliver .. => True
  | .lose => False

structure DiesOut (b : Broadcast) (endpoints : Finset Endpoint) (origin : Endpoint) : Prop where
  once : (b.processed.map Prod.fst).Nodup
  not_origin : origin ∉ b.processed.map Prod.fst
  peers : ∀ request ∈ b.forwarded, (request.message.peers.map Peer.endpoint).Nodup
  forwarded : b.forwarded.length ≤ endpoints.card

structure Covers (b : Broadcast) (endpoints : Finset Endpoint) (origin : Peer) : Prop where
  goesOn : b.sent.isSome → ∀ session transactionId fileTransactionId,
    (b.deliver session transactionId fileTransactionId).isSome
  all : b.sent = none → ∀ e ∈ endpoints, e ≠ origin.endpoint →
    (b.processed.map Prod.fst).count e = 1
  first : ∀ hop ∈ b.processed, hop.2.message.peers.head? = some origin
  last : b.sent = none → b.received.getLast? = some origin.endpoint

structure Invariant (origin : Peer) (b : Broadcast) : Prop where
  addressed : b.net.IsAddressed
  sent : ∀ request, b.sent = some request →
    request.message.peers.head? = some origin
      ∧ request.message.peers.map Peer.endpoint = origin.endpoint :: b.processed.map Prod.fst
  mem : ∀ e ∈ origin.endpoint :: b.processed.map Prod.fst, e ∈ b.net.endpoints
  nodup : (origin.endpoint :: b.processed.map Prod.fst).Nodup
  peers : ∀ request ∈ b.forwarded, (request.message.peers.map Peer.endpoint).Nodup
  length : b.forwarded.length ≤ b.processed.length + 1
  first : ∀ hop ∈ b.processed, hop.2.message.peers.head? = some origin

section Step

variable {origin : Peer} {b b' : Broadcast} {session : Session} {transactionId : String}
  {fileTransactionId : FileInfo → String}

inductive Delivers (b : Broadcast) (request : RequestObject) (target : Peer) (b' : Broadcast) :
    Prop where
  | stopped (hmem : target.endpoint ∈ request.message.peers.map Peer.endpoint)
      (hsent : b'.sent = none) (hprocessed : b'.processed = b.processed)
      (hforwarded : b'.forwarded = b.forwarded) : Delivers b request target b'
  | processed (self : Peer) (received : RequestObject)
      (hnot : target.endpoint ∉ request.message.peers.map Peer.endpoint)
      (hself : self.endpoint = target.endpoint)
      (hpeers : received.message = request.message)
      (hprocessed : b'.processed = b.processed ++ [(target.endpoint, received)])
      (hsent : ∀ request', b'.sent = some request' →
        request'.message.peers = request.message.peers ++ [self])
      (htarget : b'.sent.map (·.connection)
        = (b.net.table target.endpoint).tryGetSuccessor.map Connection.peer)
      (hforwarded : b'.forwarded = b.forwarded ++ b'.sent.toList) : Delivers b request target b'

theorem deliver_delivers (hnet : b.net.IsAddressed)
    (hdeliver : b.deliver session transactionId fileTransactionId = some b') :
    ∃ request target, b.sent = some request ∧ request.connection = .peer target
      ∧ target.endpoint ∈ b.net.endpoints ∧ b'.net = b.net
      ∧ b'.received = b.received ++ [target.endpoint] ∧ Delivers b request target b' := by
  simp only [deliver, Option.bind_eq_bind, Option.bind_eq_some_iff] at hdeliver
  rcases hdeliver with ⟨request, hsent, hdeliver⟩
  split at hdeliver
  . cases hdeliver
  next target htarget =>
  split at hdeliver
  . next hmem =>
    refine ⟨request, target, hsent, htarget, hmem, ?_⟩
    rcases Option.map_eq_some_iff.mp (hnet _ hmem) with ⟨self, hself, hendpoint⟩
    have hself : (b.net.table target.endpoint).tryGetSelf = some self := hself
    have hiff : RequestObject.hasPassed ⟨request.message, .session session⟩ self = true
        ↔ target.endpoint ∈ request.message.peers.map Peer.endpoint := by
      rw [← hendpoint]
      exact RequestObject.hasPassed_iff _ self
    cases hdeliver
    refine ⟨rfl, rfl, ?_⟩
    cases hpassed : RequestObject.hasPassed ⟨request.message, .session session⟩ self with
    | true =>
      have hhandle := BroadcastFilelist.handleRequest_of_hasPassed (b.transfers target.endpoint)
        transactionId fileTransactionId hself hpassed
      apply Delivers.stopped (hiff.mp hpassed)
      . simp [hhandle]
      . simp [BroadcastFilelist.processes, hself, hpassed]
      . simp [hhandle]
    | false =>
      have hhandle := BroadcastFilelist.handleRequest_forwards (b.transfers target.endpoint)
        transactionId fileTransactionId hself hpassed
      refine .processed self ⟨request.message, .session session⟩ ?_ hendpoint ?_ ?_ ?_ ?_ ?_
      . rw [← hiff, hpassed]
        simp
      . rfl
      . simp [BroadcastFilelist.processes, hself, hpassed]
      . dsimp only
        rw [hhandle]
        intro request' hrequest'
        rcases Option.map_eq_some_iff.mp hrequest' with ⟨target', _, heq⟩
        rw [← heq]
        rfl
      . dsimp only
        rw [hhandle, Option.map_map]
        rfl
      . rfl
  . cases hdeliver

theorem Delivers.invariant {request : RequestObject} {target : Peer} (h : Invariant origin b)
    (hsent : b.sent = some request) (hmem : target.endpoint ∈ b.net.endpoints)
    (hnet : b'.net = b.net)
    (hdelivers : Delivers b request target b') : Invariant origin b' := by
  have hrequest := h.sent request hsent
  cases hdelivers with
  | stopped _ hsent' hprocessed hforwarded =>
    refine ⟨hnet ▸ h.addressed, ?_, ?_, ?_, hforwarded ▸ h.peers, ?_, hprocessed ▸ h.first⟩
    . intro request' hrequest'
      rw [hsent'] at hrequest'
      cases hrequest'
    . rw [hprocessed, hnet]
      exact h.mem
    . rw [hprocessed]
      exact h.nodup
    . rw [hprocessed, hforwarded]
      exact h.length
  | processed self received hnot hself hpeers hprocessed hsent' _ hforwarded =>
    have hvisited : origin.endpoint :: b'.processed.map Prod.fst
        = (origin.endpoint :: b.processed.map Prod.fst) ++ [target.endpoint] := by
      simp [hprocessed]
    have hnodup : ((origin.endpoint :: b.processed.map Prod.fst) ++ [target.endpoint]).Nodup := by
      rw [hrequest.2] at hnot
      rw [← List.concat_eq_append]
      exact h.nodup.concat hnot
    have hlist : ∀ request', b'.sent = some request' →
        request'.message.peers.head? = some origin
          ∧ request'.message.peers.map Peer.endpoint = origin.endpoint ::
            b'.processed.map Prod.fst := by
      intro request' hrequest'
      rw [hsent' request' hrequest', hvisited, List.map_append, hrequest.2,
        List.head?_append, hrequest.1]
      exact ⟨rfl, by simp [hself]⟩
    refine ⟨hnet ▸ h.addressed, hlist, ?_, ?_, ?_, ?_, ?_⟩
    . rw [hvisited, hnet]
      intro e he
      cases List.mem_append.mp he with
      | inl he => exact h.mem e he
      | inr he =>
        rw [List.mem_singleton] at he
        exact he ▸ hmem
    . rw [hvisited]
      exact hnodup
    . rw [hforwarded]
      intro request' hrequest'
      cases List.mem_append.mp hrequest' with
      | inl hold => exact h.peers request' hold
      | inr hnew =>
        rw [Option.mem_toList] at hnew
        rw [(hlist request' hnew).2, hvisited]
        exact hnodup
    . have hone : b'.sent.toList.length ≤ 1 := Option.length_toList_le
      rw [hforwarded, hprocessed, List.length_append, List.length_append, List.length_singleton]
      have := h.length
      omega
    . rw [hprocessed]
      intro hop hhop
      cases List.mem_append.mp hhop with
      | inl hhop => exact h.first hop hhop
      | inr hhop =>
        rw [List.mem_singleton] at hhop
        rw [hhop, hpeers]
        exact hrequest.1

theorem Invariant.step {e : Event} (h : Invariant origin b) (hstep : b.step e = some b') :
    Invariant origin b' := by
  cases e with
  | change e rt t =>
    simp only [Broadcast.step, Option.ite_none_right_eq_some, Option.some.injEq] at hstep
    rcases hstep with ⟨hself, hstep⟩
    rw [← hstep]
    exact ⟨h.addressed.setTable hself, h.sent, h.mem, h.nodup, h.peers, h.length, h.first⟩
  | deliver session transactionId fileTransactionId =>
    rcases deliver_delivers h.addressed hstep
      with ⟨request, target, hsent, _, hmem, hnet, _, hdelivers⟩
    exact hdelivers.invariant h hsent hmem hnet
  | lose =>
    cases hstep
    exact ⟨h.addressed, fun _ hsent => (nomatch hsent), h.mem, h.nodup, h.peers, h.length, h.first⟩

theorem step_endpoints {e : Event} (hstep : b.step e = some b') :
    b'.net.endpoints = b.net.endpoints := by
  cases e with
  | change e rt t =>
    simp only [Broadcast.step, Option.ite_none_right_eq_some, Option.some.injEq] at hstep
    rw [← hstep.2]
    rfl
  | deliver session transactionId fileTransactionId =>
    simp only [Broadcast.step, deliver, Option.bind_eq_bind, Option.bind_eq_some_iff] at hstep
    rcases hstep with ⟨request, _, hstep⟩
    split at hstep
    . cases hstep
    . split at hstep
      . cases hstep
        rfl
      . cases hstep
  | lose =>
    cases hstep
    rfl

theorem Invariant.length_le (h : Invariant origin b) :
    b.processed.length + 1 ≤ b.net.endpoints.card := by
  have hcard : (origin.endpoint :: b.processed.map Prod.fst).toFinset.card
    ≤ b.net.endpoints.card := by
    apply Finset.card_le_card
    intro e he
    exact h.mem e (List.mem_toFinset.mp he)
  rw [List.toFinset_card_of_nodup h.nodup, List.length_cons, List.length_map] at hcard
  exact hcard

theorem Invariant.diesOut (h : Invariant origin b) : b.DiesOut b.net.endpoints origin.endpoint := by
  have hnodup := List.nodup_cons.mp h.nodup
  exact ⟨hnodup.2, hnodup.1, h.peers, h.length.trans h.length_le⟩

theorem start_invariant {net : Network} (hnet : net.IsAddressed) (transfers : Endpoint → Transfers)
    {e : Endpoint} (he : e ∈ net.endpoints) (hself : (net.table e).self = some origin)
    (transactionId : String) : Invariant origin (start net transfers e transactionId) := by
  have hendpoint := hnet.endpoint_eq he hself
  have hsent : ∀ request, (start net transfers e transactionId).sent = some request →
      request.message.peers = [origin] := by
    intro request hrequest
    have hself : (net.table e).tryGetSelf = some origin := hself
    simp only [start, BroadcastFilelist.createRequest, hself] at hrequest
    split at hrequest
    . cases hrequest
    . cases hrequest
      rfl
  refine ⟨hnet, ?_, ?_, by simp [start], ?_, ?_, ?_⟩
  . intro request hrequest
    rw [hsent request hrequest]
    exact ⟨rfl, rfl⟩
  . simp [start, hendpoint, he]
  . intro request hrequest
    have hsome := Option.mem_toList.mp hrequest
    rw [hsent request hsome]
    simp
  . exact Option.length_toList_le
  . intro hop hhop
    cases hhop

end Step

section Ring

variable {origin : Peer} {b b' : Broadcast} {next : Endpoint → Endpoint} {net : Network}
  {e : Endpoint}

structure OnRing (next : Endpoint → Endpoint) (origin : Peer) (b : Broadcast) : Prop where
  invariant : Invariant origin b
  ring : b.net.FormsRing next
  visited : origin.endpoint :: b.processed.map Prod.fst
    = List.iterate next origin.endpoint (b.processed.length + 1)
  underway : ∀ request, b.sent = some request → b.received = b.processed.map Prod.fst
    ∧ ∃ target, request.connection = .peer target
        ∧ target.endpoint = next^[b.processed.length + 1] origin.endpoint
  back : b.sent = none → b.processed.length + 1 = b.net.endpoints.card
    ∧ b.received = b.processed.map Prod.fst ++ [origin.endpoint]

theorem OnRing.mem_origin (h : OnRing next origin b) : origin.endpoint ∈ b.net.endpoints :=
  h.invariant.mem _ List.mem_cons_self

theorem Delivers.onRing {request : RequestObject} {target : Peer} (h : OnRing next origin b)
    (hsent : b.sent = some request) (hconnection : request.connection = .peer target)
    (hmem : target.endpoint ∈ b.net.endpoints) (hnet : b'.net = b.net)
    (hreceived : b'.received = b.received ++ [target.endpoint])
    (hdelivers : Delivers b request target b') :
    OnRing next origin b' := by
  have hInvariant := hdelivers.invariant h.invariant hsent hmem hnet
  rcases h.underway request hsent with ⟨hprocessed, target', htarget', hnext⟩
  rw [hconnection, Connection.peer.injEq] at htarget'
  subst htarget'
  -- the list gets to a node again only when it has come by all of them
  have hagain := h.ring.around.iterate_mem_iterate_iff h.mem_origin
    (Nat.succ_pos b.processed.length) h.invariant.length_le
  rw [Nat.succ_eq_add_one, ← h.visited, ← hnext, ← (h.invariant.sent request hsent).2] at hagain
  cases hdelivers with
  | stopped hvisited hsent' hprocessed' hforwarded =>
    have hlength := hagain.mp hvisited
    refine ⟨hInvariant, hnet ▸ h.ring, ?_, ?_, ?_⟩
    . rw [hprocessed']
      exact h.visited
    . intro request' hrequest'
      rw [hsent'] at hrequest'
      cases hrequest'
    . intro _
      rw [hprocessed', hnet, hreceived, hprocessed, hnext, hlength]
      exact ⟨rfl, by rw [h.ring.around.iterate_card h.mem_origin]⟩
  | processed self received hnot hself hpeers hprocessed' hsent' htarget hforwarded =>
    have hlength : b'.processed.length = b.processed.length + 1 := by
      simp [hprocessed']
    refine ⟨hInvariant, hnet ▸ h.ring, ?_, ?_, ?_⟩
    . rw [hlength, List.iterate_add, ← h.visited, hprocessed', ← hnext]
      simp
    . intro request' hrequest'
      refine ⟨by simp [hreceived, hprocessed, hprocessed'], ?_⟩
      rw [hrequest', Option.map_some] at htarget
      rcases Option.map_eq_some_iff.mp htarget.symm with ⟨target', hsucc, heq⟩
      refine ⟨target', heq.symm, ?_⟩
      have hsuccessor := h.ring.successor _ hmem
      rw [hsucc, Option.map_some, Option.some.injEq, hnext] at hsuccessor
      rw [hsuccessor, hlength]
      exact (Function.iterate_succ_apply' ..).symm
    . intro hnone
      have hsuccessor := h.ring.successor _ hmem
      rw [hnone, Option.map_none] at htarget
      rw [Option.map_eq_none_iff.mp htarget.symm] at hsuccessor
      cases hsuccessor

theorem OnRing.step {e : Event} (h : OnRing next origin b) (hfollows : e.Follows next)
    (hstep : b.step e = some b') : OnRing next origin b' := by
  cases e with
  | change e rt t =>
    have hInvariant := h.invariant.step hstep
    simp only [Broadcast.step, Option.ite_none_right_eq_some, Option.some.injEq] at hstep
    rcases hstep with ⟨hself, hstep⟩
    rw [← hstep] at hInvariant ⊢
    exact ⟨hInvariant, h.ring.setTable hfollows, h.visited, h.underway, h.back⟩
  | deliver session transactionId fileTransactionId =>
    rcases deliver_delivers h.invariant.addressed hstep
      with ⟨request, target, hsent, hconnection, hmem, hnet, hreceived, hdelivers⟩
    exact hdelivers.onRing h hsent hconnection hmem hnet hreceived
  | lose => cases hfollows

theorem start_onRing (hnet : net.IsAddressed) (hring : net.FormsRing next)
    (transfers : Endpoint → Transfers) (he : e ∈ net.endpoints)
    (hself : (net.table e).self = some origin)
    (transactionId : String) : OnRing next origin (start net transfers e transactionId) := by
  have hInvariant := start_invariant hnet transfers he hself transactionId
  have hendpoint := hnet.endpoint_eq he hself
  rcases Option.map_eq_some_iff.mp (hring.successor e he) with ⟨target, hsucc, hnext⟩
  have hself : (net.table e).tryGetSelf = some origin := hself
  refine ⟨hInvariant, hring, rfl, ?_, ?_⟩
  . intro request hrequest
    simp only [start, BroadcastFilelist.createRequest, hself, hsucc, Option.some.injEq] at hrequest
    rw [← hrequest]
    refine ⟨rfl, target, rfl, ?_⟩
    rw [hnext, hendpoint]
    rfl
  . intro hnone
    simp [start, BroadcastFilelist.createRequest, hself, hsucc] at hnone

theorem deliver_isSome {request : RequestObject} {target : Peer} (hsent : b.sent = some request)
    (hconnection : request.connection = .peer target) (hmem : target.endpoint ∈ b.net.endpoints)
    (session : Session) (transactionId : String) (fileTransactionId : FileInfo → String) :
    (b.deliver session transactionId fileTransactionId).isSome := by
  simp [deliver, hsent, hconnection, hmem]

theorem OnRing.covers (h : OnRing next origin b) : b.Covers b.net.endpoints origin := by
  have hnodup := List.nodup_cons.mp h.invariant.nodup
  refine ⟨?_, ?_, h.invariant.first, ?_⟩
  . intro hsome
    rcases Option.isSome_iff_exists.mp hsome with ⟨request, hsent⟩
    rcases h.underway request hsent with ⟨_, target, hconnection, hnext⟩
    apply deliver_isSome hsent hconnection
    rw [hnext]
    exact h.ring.around.iterate_mem h.mem_origin _
  . intro hnone e he hne
    rw [← h.ring.around.mem_iterate_card_iff h.mem_origin, ← (h.back hnone).1, ← h.visited,
      List.mem_cons] at he
    apply List.count_eq_one_of_mem hnodup.2
    exact he.resolve_left hne
  . intro hnone
    rw [(h.back hnone).2]
    simp

end Ring

/--
Whatever the nodes do to their tables meanwhile, a broadcast dies out, and it covers a ring that
stays as it is.
-/
theorem diesOut_and_covers (net : Network) (transfers : Endpoint → Transfers) (origin : Peer)
    (transactionId : String) (hnet : net.IsAddressed) (horigin : net.IsMember origin)
    {events : List Event}
    {b : Broadcast}
    (hexec : Run.exec step (start net transfers origin.endpoint transactionId) events = some b) :
    b.DiesOut net.endpoints origin.endpoint
      ∧ ∀ next, net.FormsRing next → (∀ e ∈ events, e.Follows next) →
        b.Covers net.endpoints origin := by
  have hendpoints : b.net.endpoints = net.endpoints := by
    have hkeeps (b : Broadcast) (e : Event) (b' : Broadcast) (h : b.net.endpoints = net.endpoints)
        (hstep : b.step e = some b') : b'.net.endpoints = net.endpoints :=
      (step_endpoints hstep).trans h
    exact Run.exec_invariant hkeeps rfl hexec
  rw [← hendpoints]
  constructor
  . apply Invariant.diesOut
    apply Run.exec_invariant _ (start_invariant hnet transfers horigin.1 horigin.2 transactionId)
      hexec
    intro b e b' h hstep
    exact h.step hstep
  . intro next hring hfollows
    apply OnRing.covers
    have halong : Run.Along step (fun _ e => e.Follows next)
        (start net transfers origin.endpoint transactionId) events :=
      .of_forall fun e he _ => hfollows e he
    apply Run.exec_of_along _ (start_onRing hnet hring transfers horigin.1 horigin.2 transactionId)
      halong hexec
    intro b e b' h hfollows hstep
    exact h.step hfollows hstep

def otherNode (e : Endpoint) : Endpoint :=
  if e = ⟨"10.0.0.1", "6100"⟩ then ⟨"10.0.0.2", "6100"⟩ else ⟨"10.0.0.1", "6100"⟩

theorem twoNodes_formsRing : Network.twoNodes.FormsRing otherNode := by
  have hreaches : ∀ a ∈ Network.twoNodes.endpoints, ∀ b ∈ Network.twoNodes.endpoints,
      otherNode^[0] a = b ∨ otherNode^[1] a = b := by
    decide
  refine ⟨by decide, by decide, ?_⟩
  intro a ha b hb
  cases hreaches a ha b hb with
  | inl h => exact ⟨0, h⟩
  | inr h => exact ⟨1, h⟩

theorem diesOut_and_covers_twoNodes :
    let transfers : Endpoint → Transfers :=
      fun _ => .ofStorage (StaticStorage.init "no" (by decide))
    let events : List Event :=
      [.deliver ⟨0, "10.0.0.1"⟩ "t1" fun _ => "u", .deliver ⟨0, "10.0.0.2"⟩ "t2" fun _ => "v"]
    ∃ b, Run.exec step (start Network.twoNodes transfers ⟨"10.0.0.1", "6100"⟩ "t0") events = some b
      ∧ b.sent = none ∧ b.DiesOut Network.twoNodes.endpoints ⟨"10.0.0.1", "6100"⟩
      ∧ b.Covers Network.twoNodes.endpoints ⟨"1", "10.0.0.1", "6100"⟩ := by
  intro transfers events
  have hnet : Network.twoNodes.IsAddressed := by decide
  have hmember : Network.twoNodes.IsMember ⟨"1", "10.0.0.1", "6100"⟩ := by decide
  have h {b : Broadcast}
      (hexec : Run.exec step (start Network.twoNodes transfers ⟨"10.0.0.1", "6100"⟩ "t0") events
        = some b) :=
    diesOut_and_covers Network.twoNodes transfers ⟨"1", "10.0.0.1", "6100"⟩ "t0" hnet hmember hexec
  refine ⟨_, rfl, rfl, (h rfl).1, (h rfl).2 otherNode twoNodes_formsRing ?_⟩
  simp [events, Event.Follows]

end Broadcast

end Peerpaste
