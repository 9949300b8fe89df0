import Peerpaste.Messages.FindSuccessor
import Peerpaste.Network.Basic

/-!
This module contains the recursive lookup: a `find_successor` request that each node either answers
or forwards, and the response that is passed back along the same nodes.
-/

namespace Peerpaste

namespace Network

inductive Served where
  | failed
  | answered (response : Message)
  | forwarded (target : Peer) (request : Message)
  deriving DecidableEq, Repr

/--
What comes from outside at one hop of a lookup: the connection that the request arrives on and the
transaction ids of the messages that the node creates.
-/
structure Hop where
  session : Session
  requestId : String
  responseId : String

def serve (net : Network) (hop : Hop) (e : Endpoint) (message : Message) : Served :=
  if e ∈ net.endpoints then
    match FindSuccessor.handleRequest (net.table e)
      ⟨message, .session hop.session⟩ hop.requestId with
    | none => .failed
    | some handled =>
      match handled.notified with
      | [⟨response, .session _⟩] => .answered response
      | [⟨request, .peer target⟩] => .forwarded target request
      | _ => .failed
  else
    .failed

def passBack (net : Network) (hop : Hop) (e : Endpoint) (message response : Message) :
    Option Message := do
  let handled ← FindSuccessor.handleForwardedResponse (net.table e)
    ⟨message, .session hop.session⟩ ⟨response, .session hop.session⟩ hop.responseId
  handled.notified.head?.map RequestObject.message

/--
The response that a `find_successor` request to the node at `e` gets, if at most `fuel` nodes handle
it.
-/
def lookup (net : Network) (hops : Nat → Hop) : Nat → Endpoint → Message → Option Message
  | 0, _, _ => none
  | fuel + 1, e, message =>
    match net.serve (hops fuel) e message with
    | .failed => none
    | .answered response => some response
    | .forwarded target request =>
      (lookup net hops fuel target.endpoint request).bind (net.passBack (hops fuel) e message)

def route (net : Network) (hops : Nat → Hop) : Nat → Endpoint → Message → List Endpoint
  | 0, _, _ => []
  | fuel + 1, e, message =>
    match net.serve (hops fuel) e message with
    | .failed => [e]
    | .answered _ => [e]
    | .forwarded target request => e :: route net hops fuel target.endpoint request

section Serve

variable {net : Network} {e : Endpoint} {message : Message} {peer : Peer}

theorem serve_cases (hop : Hop) (hnet : net.WellFormed) (he : e ∈ net.endpoints)
    (hpeer : message.peers.head? = some peer) {s : Peer}
    (hsucc : (net.table e).tryGetSuccessor = some s)
    (hmem : ∀ p ∈ (net.table e).getPeers, net.IsMember p) :
    (net.serve hop e message = .answered ((message.generateResponse hop.requestId).setPeers [s])
        ∧ (Clockwise.Between (net.selfAt e).id peer.id s.id ∨ peer.id = s.id))
      ∨
    (net.serve hop e message
          = .answered ((message.generateResponse hop.requestId).setPeers [net.selfAt e])
        ∧ ¬ (Clockwise.Between (net.selfAt e).id peer.id s.id ∨ peer.id = s.id)
        ∧ ∀ p ∈ (net.table e).getPeers, ¬ Clockwise.Between (net.selfAt e).id p.id peer.id)
      ∨
    (∃ target, net.serve hop e message
          = .forwarded target (Message.createRequest "find_successor" [peer] hop.requestId)
        ∧ net.IsMember target ∧ Clockwise.Between (net.selfAt e).id target.id peer.id) := by
  have hself := hnet.self_eq e he
  rcases List.head?_eq_some_iff.mp hpeer with ⟨rest, hpeers⟩
  rcases FindSuccessor.exists_closestPrecedingNode hself peer.id with ⟨p, hp⟩
  have hfind := FindSuccessor.findSuccessor_eq hself hsucc hp
  simp only [serve, he, ↓reduceIte, FindSuccessor.handleRequest, hpeers]
  split at hfind
  . next hreach =>
    left
    refine ⟨?_, hreach⟩
    simp only [hfind, RequestObject.respond]
  . next hreach =>
    split at hfind
    . next hid =>
      right
      left
      refine ⟨?_, hreach, ?_⟩
      . simp only [hfind, RequestObject.respond]
      . rcases FindSuccessor.closestPrecedingNode_cases hself hp with ⟨_, hbetween⟩ | ⟨_, hnone⟩
        . exact absurd hid hbetween.ne_left
        . exact hnone
    . next hid =>
      right
      right
      rcases FindSuccessor.closestPrecedingNode_cases hself hp with ⟨hlist, hbetween⟩ | ⟨heq, _⟩
      . refine ⟨p, ?_, hmem p hlist, hbetween⟩
        simp only [hfind, FindSuccessor.forwardRequest, hpeers, hp]
      . exact absurd (congrArg Peer.id heq) hid

theorem passBack_eq (net : Network) (hop : Hop) (e : Endpoint) (message : Message)
    {response : Message} {s : Peer} (h : response.peers = [s]) :
    ∃ answer, net.passBack hop e message response = some answer ∧ answer.peers = [s] := by
  simp [passBack, FindSuccessor.handleForwardedResponse, h]

end Serve

def twoNodes : Network where
  endpoints := {⟨"10.0.0.1", "6100"⟩, ⟨"10.0.0.2", "6100"⟩}
  table e :=
    let first : Peer := ⟨"1", "10.0.0.1", "6100"⟩
    let second : Peer := ⟨"2", "10.0.0.2", "6100"⟩
    if e = first.endpoint then
      ⟨first, none, [second, first]⟩
    else
      ⟨second, none, [first, first]⟩

section Progress

variable {net : Network} {peer : Peer}

theorem card_remaining_lt (net : Network) (hnet : net.WellFormed) {e : Endpoint}
    (he : e ∈ net.endpoints) (id : String) :
    (Clockwise.remaining net.ids (net.selfAt e).id id).card < net.endpoints.card := by
  have := Clockwise.card_remaining_lt_card id (hnet.isMember_selfAt he).id_mem_ids
  have := net.card_ids_le
  omega

def Serves (net : Network) (peer : Peer) (Answer : Peer → Prop) : Prop :=
  ∀ hop e message, e ∈ net.endpoints → message.peers.head? = some peer →
    (∃ response a, net.serve hop e message = .answered response ∧ response.peers = [a] ∧ Answer a)
      ∨
    (∃ target, net.serve hop e message
          = .forwarded target (Message.createRequest "find_successor" [peer] hop.requestId)
        ∧ net.IsMember target ∧ Clockwise.Between (net.selfAt e).id target.id peer.id)

theorem serves_of_lists (hnet : net.WellFormed)
    (hlists : ∀ e ∈ net.endpoints, (net.table e).getPeers ≠ []
      ∧ ∀ p ∈ (net.table e).getPeers, net.IsMember p) (peer : Peer) :
    net.Serves peer (fun _ => True) := by
  intro hop e message he hpeer
  rcases hlists e he with ⟨hne, hmem⟩
  rcases List.exists_cons_of_ne_nil hne with ⟨s, tail, heq⟩
  have hsucc : (net.table e).tryGetSuccessor = some s := by
    rw [RoutingTable.getPeers] at heq
    simp [RoutingTable.tryGetSuccessor, heq]
  rcases serve_cases hop hnet he hpeer hsucc hmem with ⟨h, _⟩ | ⟨h, _⟩ | h
  . exact Or.inl ⟨_, s, h, rfl, trivial⟩
  . exact Or.inl ⟨_, net.selfAt e, h, rfl, trivial⟩
  . exact Or.inr h

theorem Serves.lookup {Answer : Peer → Prop} (hserves : net.Serves peer Answer)
    (hops : Nat → Hop) (fuel : Nat) (e : Endpoint) (message : Message) (he : e ∈ net.endpoints)
    (hpeer : message.peers.head? = some peer)
    (hfuel : (Clockwise.remaining net.ids (net.selfAt e).id peer.id).card < fuel) :
    ∃ response a, net.lookup hops fuel e message = some response ∧ response.peers = [a]
      ∧ Answer a := by
  induction fuel generalizing e message with
  | zero => omega
  | succ fuel ih =>
    rcases hserves (hops fuel) e message he hpeer with
      ⟨response, a, h, hpeers, ha⟩ | ⟨target, h, ht⟩
    . exact ⟨response, a, by simp only [Network.lookup, h], hpeers, ha⟩
    . rcases ht with ⟨htarget, hbetween⟩
      have hlt := Clockwise.card_remaining_lt htarget.id_mem_ids hbetween
      rw [← htarget.selfAt_eq] at hlt
      rcases ih target.endpoint (Message.createRequest "find_successor" [peer]
        (hops fuel).requestId) htarget.1 rfl (by omega) with ⟨response, a, hlookup, hpeers, ha⟩
      rcases passBack_eq net (hops fuel) e message hpeers with
        ⟨answer, hanswer, hpeers'⟩
      refine ⟨answer, a, ?_, hpeers', ha⟩
      simp only [Network.lookup, h, hlookup, Option.bind_some, hanswer]

theorem Serves.lookup_congr {Answer : Peer → Prop} (hserves : net.Serves peer Answer)
    {net' : Network} (hsub : net.endpoints ⊆ net'.endpoints)
    (htable : ∀ e ∈ net.endpoints, net'.table e = net.table e) (hops : Nat → Hop) (fuel : Nat)
    (e : Endpoint) (message : Message) (he : e ∈ net.endpoints)
    (hpeer : message.peers.head? = some peer) :
    net'.lookup hops fuel e message = net.lookup hops fuel e message := by
  induction fuel generalizing e message with
  | zero => rfl
  | succ fuel ih =>
    have hserve : net'.serve (hops fuel) e message = net.serve (hops fuel) e message := by
      simp only [serve, he, hsub he, htable e he]
    rcases hserves (hops fuel) e message he hpeer with ⟨response, a, h, _⟩ | ⟨target, h, ht⟩
    . simp only [Network.lookup, hserve, h]
    . have hpass : net'.passBack (hops fuel) e message = net.passBack (hops fuel) e message := by
        funext response
        simp only [passBack, htable e he]
      simp only [Network.lookup, hserve, h, hpass]
      rw [ih target.endpoint _ ht.1.1 rfl]

theorem Serves.route {Answer : Peer → Prop} (hserves : net.Serves peer Answer)
    (hops : Nat → Hop) (fuel : Nat) (e : Endpoint) (message : Message) (he : e ∈ net.endpoints)
    (hpeer : message.peers.head? = some peer) :
    (∀ e' ∈ net.route hops fuel e message, e' ∈ net.endpoints)
      ∧ (∀ e' ∈ (net.route hops fuel e message).head?, e' = e)
      ∧ (net.route hops fuel e message).IsChain
          (fun x y => Clockwise.Between (net.selfAt x).id (net.selfAt y).id peer.id) := by
  induction fuel generalizing e message with
  | zero => simp [Network.route]
  | succ fuel ih =>
    rcases hserves (hops fuel) e message he hpeer with ⟨response, a, h, _⟩ | ⟨target, h, ht⟩
    . simp [Network.route, h, he]
    . rcases ht with ⟨htarget, hbetween⟩
      rcases ih target.endpoint (Message.createRequest "find_successor" [peer]
        (hops fuel).requestId) htarget.1 rfl with ⟨hends, hhead, hchain⟩
      simp only [Network.route, h]
      refine ⟨?_, by simp, ?_⟩
      . intro e' he'
        rcases List.mem_cons.mp he' with rfl | he'
        . exact he
        . exact hends e' he'
      . rw [List.isChain_cons]
        refine ⟨?_, hchain⟩
        intro y hy
        rw [hhead y hy, htarget.selfAt_eq]
        exact hbetween

/--
With arbitrary successor lists of members, a lookup never comes back to a node, every hop goes to a
peer strictly inside the interval from the node to the id, and somebody answers.
-/
theorem lookup_progress (net : Network) (hnet : net.WellFormed)
    (hlists : ∀ e ∈ net.endpoints, (net.table e).getPeers ≠ []
      ∧ ∀ p ∈ (net.table e).getPeers, net.IsMember p)
    (hops : Nat → Hop) (start : Endpoint) (hstart : start ∈ net.endpoints) (message : Message)
    (peer : Peer) (hpeer : message.peers.head? = some peer) (fuel : Nat)
    (hfuel : net.endpoints.card ≤ fuel) :
    (net.route hops fuel start message).Nodup
      ∧ (net.route hops fuel start message).length - 1 ≤ net.endpoints.card - 1
      ∧ (∀ e ∈ net.route hops fuel start message, e ∈ net.endpoints)
      ∧ (net.route hops fuel start message).IsChain
          (fun x y => Clockwise.Between (net.selfAt x).id (net.selfAt y).id peer.id)
      ∧ (net.lookup hops fuel start message).isSome := by
  have hserves := serves_of_lists hnet hlists peer
  rcases hserves.route hops fuel start message hstart hpeer with ⟨hends, _, hchain⟩
  have hnodup : (net.route hops fuel start message).Nodup := by
    apply List.Nodup.of_map (fun x => (net.selfAt x).id)
    apply Clockwise.nodup_of_isChain peer.id
    exact List.isChain_map _ |>.mpr hchain
  have hlength : (net.route hops fuel start message).length ≤ net.endpoints.card := by
    rw [← List.toFinset_card_of_nodup hnodup]
    apply Finset.card_le_card
    intro e he
    exact hends e (List.mem_toFinset.mp he)
  have hremaining : (Clockwise.remaining net.ids (net.selfAt start).id peer.id).card < fuel := by
    have := net.card_remaining_lt hnet hstart peer.id
    omega
  rcases hserves.lookup hops fuel start message hstart hpeer hremaining with
    ⟨response, _, hlookup, _⟩
  refine ⟨hnodup, by omega, hends, hchain, ?_⟩
  simp [hlookup]

theorem lookup_progress_twoNodes :
    let hops : Nat → Hop := fun _ => ⟨⟨0, "10.0.0.3"⟩, "t1", "t2"⟩
    let message := Message.createRequest "find_successor" [⟨"15", "", ""⟩] "t0"
    (twoNodes.route hops 2 ⟨"10.0.0.2", "6100"⟩ message).Nodup
      ∧ (twoNodes.lookup hops 2 ⟨"10.0.0.2", "6100"⟩ message).isSome := by
  intro hops message
  have h := lookup_progress twoNodes (by decide) (by decide) hops ⟨"10.0.0.2", "6100"⟩ (by decide)
    message ⟨"15", "", ""⟩ rfl 2 (by decide)
  exact ⟨h.1, h.2.2.2.2⟩

end Progress

section Successor

variable {net : Network}

def FirstSuccessorsCorrect (net : Network) : Prop :=
  ∀ e ∈ net.endpoints,
    (∃ s, (net.table e).tryGetSuccessor = some s
      ∧ Clockwise.IsNext net.ids (net.selfAt e).id s.id)
      ∧ ∀ p ∈ (net.table e).getPeers, net.IsMember p

theorem serves_successor (hnet : net.WellFormed) (hfirst : net.FirstSuccessorsCorrect)
    (peer : Peer) :
    net.Serves peer
      (fun a => net.IsMember a ∧ Clockwise.IsSuccessor net.ids peer.id a.id) := by
  intro hop e message he hpeer
  rcases hfirst e he with ⟨⟨s, hsucc, hnext⟩, hmem⟩
  have hs : s ∈ (net.table e).getPeers := List.mem_of_mem_head? hsucc
  have hself := (hnet.isMember_selfAt he).id_mem_ids
  rcases serve_cases hop hnet he hpeer hsucc hmem with
    ⟨h, hreach⟩ | ⟨_, hreach, hnone⟩ | h
  . exact Or.inl ⟨_, s, h, rfl, hmem s hs, hnext.isSuccessor hreach⟩
  . exact absurd (hnext.between_of_not_reached hself hreach) (hnone s hs)
  . exact Or.inr h

/--
With correct first successors a lookup from any node returns exactly the ring successor of any id:
the node with that id if there is one, else the first node after it.
-/
theorem lookup_correct (net : Network) (hnet : net.WellFormed) (hfirst : net.FirstSuccessorsCorrect)
    (hops : Nat → Hop) (start : Endpoint) (hstart : start ∈ net.endpoints) (message : Message)
    (peer : Peer) (hpeer : message.peers.head? = some peer) (fuel : Nat)
    (hfuel : net.endpoints.card ≤ fuel) :
    ∃ response s, net.lookup hops fuel start message = some response ∧ response.peers = [s]
      ∧ net.IsMember s
      ∧ ((∃ p, net.IsMember p ∧ p.id = peer.id) → s.id = peer.id)
      ∧ ((¬ ∃ p, net.IsMember p ∧ p.id = peer.id) →
          ∀ p, net.IsMember p → ¬ Clockwise.Between peer.id p.id s.id) := by
  have hremaining : (Clockwise.remaining net.ids (net.selfAt start).id peer.id).card < fuel := by
    have := net.card_remaining_lt hnet hstart peer.id
    omega
  rcases (serves_successor hnet hfirst peer).lookup hops fuel start message hstart hpeer
      hremaining with
    ⟨response, s, hlookup, hpeers, hs, hsucc⟩
  rw [Clockwise.IsSuccessor.iff_cases] at hsucc
  simp only [hnet.mem_ids] at hsucc
  refine ⟨response, s, hlookup, hpeers, hs, hsucc.2.1, ?_⟩
  intro hnone p hp
  exact hsucc.2.2 hnone p.id ⟨p, hp, rfl⟩

theorem twoNodes_firstSuccessorsCorrect : twoNodes.FirstSuccessorsCorrect := by
  intro e he
  have hcases : e = ⟨"10.0.0.1", "6100"⟩ ∨ e = ⟨"10.0.0.2", "6100"⟩ := by
    simpa [twoNodes] using he
  rcases hcases with rfl | rfl
  . exact ⟨⟨⟨"2", "10.0.0.2", "6100"⟩, by decide⟩, by decide⟩
  . exact ⟨⟨⟨"1", "10.0.0.1", "6100"⟩, by decide⟩, by decide⟩

theorem lookup_correct_twoNodes :
    let hops : Nat → Hop := fun _ => ⟨⟨0, "10.0.0.3"⟩, "t1", "t2"⟩
    let message := Message.createRequest "find_successor" [⟨"2", "", ""⟩] "t0"
    ∃ response s, twoNodes.lookup hops 2 ⟨"10.0.0.2", "6100"⟩ message = some response
      ∧ response.peers = [s] ∧ s.id = "2" := by
  intro hops message
  rcases lookup_correct twoNodes (by decide) twoNodes_firstSuccessorsCorrect hops
    ⟨"10.0.0.2", "6100"⟩ (by decide) message ⟨"2", "", ""⟩ rfl 2 (by decide) with
    ⟨response, s, hlookup, hpeers, _, hmember, _⟩
  exact ⟨response, s, hlookup, hpeers, hmember ⟨⟨"2", "10.0.0.2", "6100"⟩, by decide, rfl⟩⟩

end Successor

end Network

end Peerpaste
