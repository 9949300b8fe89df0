import Peerpaste.Lookups.Basic
import Peerpaste.Network.FixedPoint

/-!
This module contains that lookups are right in whatever order the messages of all of them arrive:
every response on its way is the answer to the request of its connection, and every promise is the
successor of its id.
-/

namespace Peerpaste

namespace Lookups

abbrev Connection := Rpc.Connection Endpoint Message

abbrev ask (peer : Peer) (transactionId : String) : Message :=
  Message.createRequest "find_successor" [peer] transactionId

def Asks (k : Connection) (peer : Peer) : Prop :=
  ∃ transactionId, k.request = ask peer transactionId

structure Answers (net : Network) (k : Connection) (message : Message) : Prop where
  isRequest : message.isRequest = false
  correlationalId : message.header.correlationalId = k.request.header.transactionId
  successor : ∀ peer, Asks k peer →
    ∃ s, message.peers = [s] ∧ net.IsMember s ∧ Clockwise.IsSuccessor net.ids peer.id s.id

def Sound (net : Network) (a : Endpoint) (_ : Finder) : Rpc.Input Message Act Arrival → Prop
  | .act (.create rt _ target _) => net.Knows a rt ∧ ∀ p ∈ target, net.IsMember p
  | .act (.timeOut _) => True
  | .request arrival _ _ => net.Knows a arrival.table
  | .response arrival _ _ => net.Knows a arrival.table

instance (net : Network) (a : Endpoint) (f : Finder) :
    ∀ input : Rpc.Input Message Act Arrival, Decidable (Sound net a f input)
  | .act (.create rt _ target _) =>
    inferInstanceAs (Decidable (net.Knows a rt ∧ ∀ p ∈ target, net.IsMember p))
  | .act (.timeOut _) => inferInstanceAs (Decidable True)
  | .request arrival _ _ => inferInstanceAs (Decidable (net.Knows a arrival.table))
  | .response arrival _ _ => inferInstanceAs (Decidable (net.Knows a arrival.table))

inductive Reacts (net : Network) (a : Endpoint) (f : Finder) :
    Rpc.Input Message Act Arrival → Finder → List (Rpc.Send Endpoint Message) → Prop where
  | known {rt : RoutingTable Peer} {id transactionId : String} {s : Peer} (hs : net.IsMember s)
      (hsucc : Clockwise.IsSuccessor net.ids id s.id) :
    Reacts net a f (.act (.create rt id none transactionId)) (f.setPromise id (some s)) []
  | asked {rt : RoutingTable Peer} {id transactionId : String} {target : Option Peer} {p : Peer}
      (hp : net.IsMember p) :
    Reacts net a f (.act (.create rt id target transactionId))
      (f.register ⟨transactionId, id, none⟩) [.request p.endpoint (ask ⟨id, "", ""⟩ transactionId)]
  | failed {transactionId : String} {w : Waiting} (hfind : f.find? transactionId = some w)
      (hrequest : w.request = none) :
    Reacts net a f (.act (.timeOut transactionId)) ((f.erase transactionId).setPromise w.id none) []
  | dropped {transactionId : String} {w : Waiting} {r : RequestObject}
      (hfind : f.find? transactionId = some w) (hrequest : w.request = some r) :
    Reacts net a f (.act (.timeOut transactionId)) (f.erase transactionId) []
  | answered {arrival : Arrival} {c : Nat} {peer s : Peer} {transactionId : String}
      (hs : net.IsMember s) (hsucc : Clockwise.IsSuccessor net.ids peer.id s.id) :
    Reacts net a f (.request arrival c (ask peer transactionId)) f
      [.response c (((ask peer transactionId).generateResponse arrival.transactionId).setPeers [s])]
  | forwarded {arrival : Arrival} {c : Nat} {peer p : Peer} {transactionId : String}
      (hp : net.IsMember p) (hbetween : Clockwise.Between (net.selfAt a).id p.id peer.id) :
    Reacts net a f (.request arrival c (ask peer transactionId))
      (f.register ⟨arrival.transactionId, "",
        some ⟨ask peer transactionId, .session ⟨c, arrival.clientIp⟩⟩⟩)
      [.request p.endpoint (ask peer arrival.transactionId)]
  | ignored {arrival : Arrival} {c : Nat} {message : Message}
      (hfind : f.find? message.header.correlationalId = none) :
    Reacts net a f (.response arrival c message) f []
  | resolved {arrival : Arrival} {c : Nat} {message : Message} {w : Waiting} {s : Peer}
      (hfind : f.find? message.header.correlationalId = some w) (hrequest : w.request = none)
      (hpeers : message.peers = [s]) :
    Reacts net a f (.response arrival c message)
      ((f.erase message.header.correlationalId).setPromise w.id (some s)) []
  | passedBack {arrival : Arrival} {c : Nat} {message : Message} {w : Waiting}
      {r : RequestObject} {s : Peer} (hfind : f.find? message.header.correlationalId = some w)
      (hrequest : w.request = some r)
      (hpeers : message.peers = [s]) :
    Reacts net a f (.response arrival c message) (f.erase message.header.correlationalId)
      [(r.respond [s] arrival.transactionId).toSend]

structure Tracked (cs : List Connection) (a : Endpoint) (w : Waiting) (k : Connection)
    (peer : Peer) : Prop where
  mem : k ∈ cs
  client : k.client = a
  transactionId : k.request.header.transactionId = w.transactionId
  asks : Asks k peer
  own : w.request = none → peer.id = w.id
  forwarded : ∀ r ∈ w.request, ∃ c ip k₀, r = ⟨k₀.request, .session ⟨c, ip⟩⟩ ∧ cs[c]? = some k₀
    ∧ k₀.server = a ∧ Asks k₀ peer

structure Right (net : Network) (cs : List Connection) (a : Endpoint) (f : Finder) : Prop where
  waiting : ∀ w ∈ f.waiting, ∃ k peer, Tracked cs a w k peer
  promises : ∀ id s, (id, some s) ∈ f.promises →
    net.IsMember s ∧ Clockwise.IsSuccessor net.ids id s.id

def contract (net : Network) : Rpc.Contract Endpoint Finder Message where
  Node := Right net
  Request k := k.server ∈ net.endpoints ∧ ∃ peer, Asks k peer
  Response := Answers net

def FreshIds (cs : List Connection) : Prop :=
  (cs.map fun k => (k.client, k.request.header.transactionId)).Nodup

instance (cs : List Connection) : Decidable (FreshIds cs) :=
  inferInstanceAs (Decidable (List.Nodup _))

section Finder

variable {f : Finder} {w w' : Waiting} {transactionId id : String} {value : Option Peer}

theorem Finder.mem_of_find? (h : f.find? transactionId = some w) :
    w ∈ f.waiting ∧ w.transactionId = transactionId := by
  refine ⟨List.mem_of_find?_eq_some h, ?_⟩
  simpa using List.find?_some h

theorem Finder.mem_register (h : w' ∈ (f.register w).waiting) : w' = w ∨ w' ∈ f.waiting := by
  unfold Finder.register at h
  split at h
  . exact Or.inr h
  . exact List.mem_cons.mp h

@[simp]
theorem Finder.register_promises : (f.register w).promises = f.promises := by
  unfold Finder.register
  split
  . rfl
  . rfl

theorem Finder.mem_erase : w ∈ (f.erase transactionId).waiting ↔
    w ∈ f.waiting ∧ w.transactionId ≠ transactionId := by
  simp [Finder.erase]

@[simp]
theorem Finder.setPromise_waiting : (f.setPromise id value).waiting = f.waiting := rfl

@[simp]
theorem Finder.erase_promises : (f.erase transactionId).promises = f.promises := rfl

end Finder

section React

variable {net : Network} {a : Endpoint} {f f' : Finder} {cs : List Connection}
  {input : Rpc.Input Message Act Arrival} {sends : List (Rpc.Send Endpoint Message)}

theorem Finder.create_reacts (hnet : net.WellFormed) {rt : RoutingTable Peer}
    {id transactionId : String} {target : Option Peer} (hrt : net.Knows a rt)
    (htarget : ∀ p ∈ target, net.IsMember p) :
    ∃ f' sends, f.create rt id target transactionId = some (f', sends)
      ∧ Reacts net a f (.act (.create rt id target transactionId)) f' sends := by
  cases target with
  | some p =>
    refine ⟨_, _, ?_, .asked (htarget p rfl)⟩
    simp [Finder.create, FindSuccessor.createRequest, RequestObject.toSend]
  | none =>
    rcases FindSuccessor.findSuccessor_cases hnet hrt id with
      ⟨s, hfind, hs, hsucc⟩ | ⟨hfind, p, hp, hmem, _⟩
    . refine ⟨_, _, ?_, .known hs hsucc⟩
      simp [Finder.create, FindSuccessor.createRequest, hfind]
    . refine ⟨_, _, ?_, .asked hmem⟩
      simp [Finder.create, FindSuccessor.createRequest, hfind, hp, RequestObject.toSend]

theorem Finder.request_reacts (hnet : net.WellFormed) {arrival : Arrival} {c : Nat} {k : Connection}
    {peer : Peer} (htable : net.Knows a arrival.table) (hk : Asks k peer) :
    ∃ f' sends, f.dispatch arrival ⟨k.request, .session ⟨c, arrival.clientIp⟩⟩ = some (f', sends)
      ∧ Reacts net a f (.request arrival c k.request) f' sends := by
  rcases hk with ⟨transactionId, hrequest⟩
  rw [hrequest]
  have hdispatch : f.dispatch arrival ⟨ask peer transactionId, .session ⟨c, arrival.clientIp⟩⟩
      = f.handleRequest arrival ⟨ask peer transactionId, .session ⟨c, arrival.clientIp⟩⟩ := rfl
  rw [hdispatch]
  rcases FindSuccessor.findSuccessor_cases hnet htable peer.id with
    ⟨s, hfind, hs, hsucc⟩ | ⟨hfind, p, hp, hmem, hbetween⟩
  . refine ⟨_, _, ?_, .answered hs hsucc⟩
    simp [Finder.handleRequest, FindSuccessor.handleRequest, hfind, RequestObject.toSend,
      RequestObject.respond]
  . refine ⟨_, _, ?_, .forwarded hmem hbetween⟩
    simp [Finder.handleRequest, FindSuccessor.handleRequest,
      FindSuccessor.forwardRequest, hfind, hp, RequestObject.toSend]

theorem Finder.response_reacts {arrival : Arrival} {c : Nat} {k : Connection} {message : Message}
    {peer : Peer} (hk : Asks k peer) (hmessage : Answers net k message) :
    ∃ f' sends, f.dispatch arrival ⟨message, .session ⟨c, arrival.clientIp⟩⟩ = some (f', sends)
      ∧ Reacts net a f (.response arrival c message) f' sends := by
  rcases hmessage.successor peer hk with ⟨s, hpeers, _⟩
  have hdispatch : f.dispatch arrival ⟨message, .session ⟨c, arrival.clientIp⟩⟩
      = f.handleResponse arrival ⟨message, .session ⟨c, arrival.clientIp⟩⟩ := by
    simp [Finder.dispatch, hmessage.isRequest]
  rw [hdispatch]
  cases hfind : f.find? message.header.correlationalId with
  | none =>
    refine ⟨_, _, ?_, .ignored hfind⟩
    simp [Finder.handleResponse, hfind]
  | some w =>
    rcases w with ⟨transactionId, id, _ | r⟩
    . refine ⟨_, _, ?_, .resolved hfind rfl hpeers⟩
      simp [Finder.handleResponse, hfind, FindSuccessor.handleResponse, hpeers]
    . refine ⟨_, _, ?_, .passedBack hfind rfl hpeers⟩
      simp [Finder.handleResponse, hfind, FindSuccessor.handleForwardedResponse, hpeers]

theorem exists_reacts (hnet : net.WellFormed) (hsound : Sound net a f input)
    (hexpects : (contract net).Expects cs a input)
    (hact : ∀ t, input = .act (.timeOut t) → (f.find? t).isSome) :
    ∃ f' sends, react a f input = some (f', sends) ∧ Reacts net a f input f' sends := by
  cases hexpects with
  | act e =>
    cases e with
    | create rt id target transactionId => exact Finder.create_reacts hnet hsound.1 hsound.2
    | timeOut transactionId =>
      rcases Option.isSome_iff_exists.mp (hact transactionId rfl) with ⟨w, hfind⟩
      cases hrequest : w.request with
      | none =>
        refine ⟨_, _, ?_, .failed hfind hrequest⟩
        simp [react, Finder.timeOut, hfind, hrequest]
      | some r =>
        refine ⟨_, _, ?_, .dropped hfind hrequest⟩
        simp [react, Finder.timeOut, hfind, hrequest]
  | request arrival hc hserver hk hmessage =>
    rcases hk.2 with ⟨peer, hpeer⟩
    rw [← hmessage]
    exact Finder.request_reacts hnet hsound hpeer
  | response arrival hc hclient hk hmessage =>
    rcases hk.2 with ⟨peer, hpeer⟩
    exact Finder.response_reacts hpeer hmessage

theorem react_reacts (hnet : net.WellFormed) (hsound : Sound net a f input)
    (hexpects : (contract net).Expects cs a input) (hreact : react a f input = some (f', sends)) :
    Reacts net a f input f' sends := by
  have hact : ∀ t, input = .act (.timeOut t) → (f.find? t).isSome := by
    rintro t rfl
    simp only [react, Option.map_eq_some_iff, Finder.timeOut] at hreact
    rcases hreact with ⟨_, ⟨w, hw, _⟩, _⟩
    rw [hw]
    rfl
  rcases exists_reacts hnet hsound hexpects hact with ⟨f'', sends', hreact', hreacts⟩
  rw [hreact, Option.some.injEq, Prod.mk.injEq] at hreact'
  rw [hreact'.1, hreact'.2]
  exact hreacts

end React

section Contract

variable {net : Network} {a : Endpoint} {f f' : Finder} {cs cs' : List Connection} {w : Waiting}
  {k k' : Connection} {peer peer' : Peer}

theorem Asks.unique (h : Asks k peer) (h' : Asks k peer') : peer = peer' := by
  rcases h with ⟨_, h⟩
  rcases h' with ⟨_, h'⟩
  rw [h] at h'
  have := congrArg Message.peers h'
  simpa using this

theorem FreshIds.left (h : FreshIds (cs ++ cs')) : FreshIds cs := by
  unfold FreshIds at *
  rw [List.map_append] at h
  exact h.of_append_left

theorem FreshIds.eq (h : FreshIds cs) (hk : k ∈ cs) (hk' : k' ∈ cs) (hclient : k.client = k'.client)
    (hid : k.request.header.transactionId = k'.request.header.transactionId) : k = k' :=
  List.inj_on_of_nodup_map h hk hk' (by rw [hclient, hid])

theorem Tracked.grow (h : Tracked cs a w k peer) (cs' : List Connection) :
    Tracked (cs ++ cs') a w k peer := by
  refine { h with mem := List.mem_append_left cs' h.mem, forwarded := ?_ }
  intro r hr
  rcases h.forwarded r hr with ⟨c, ip, k₀, heq, hc, hserver, hasks⟩
  refine ⟨c, ip, k₀, heq, ?_, hserver, hasks⟩
  rw [List.getElem?_append_left (List.getElem?_eq_some_iff.mp hc).1]
  exact hc

theorem Right.grow (h : Right net cs a f) (cs' : List Connection) : Right net (cs ++ cs') a f := by
  refine ⟨?_, h.promises⟩
  intro w hw
  rcases h.waiting w hw with ⟨k, peer, ht⟩
  exact ⟨k, peer, ht.grow cs'⟩

theorem Right.opens (h : Right net cs a f) (hasks : Asks k peer) (hclient : k.client = a)
    (hid : k.request.header.transactionId = w.transactionId)
    (hown : w.request = none → peer.id = w.id)
    (hforwarded : ∀ r ∈ w.request, ∃ c ip k₀, r = ⟨k₀.request, .session ⟨c, ip⟩⟩ ∧ cs[c]? = some k₀
      ∧ k₀.server = a ∧ Asks k₀ peer) : Right net (cs ++ [k]) a (f.register w) := by
  refine ⟨?_, ?_⟩
  . intro w' hw'
    rcases Finder.mem_register hw' with rfl | hw'
    . refine ⟨k, peer, by simp, hclient, hid, hasks, hown, ?_⟩
      intro r hr
      rcases hforwarded r hr with ⟨c, ip, k₀, heq, hc, hserver, hk₀⟩
      refine ⟨c, ip, k₀, heq, ?_, hserver, hk₀⟩
      rw [List.getElem?_append_left (List.getElem?_eq_some_iff.mp hc).1]
      exact hc
    . exact (h.grow [k]).waiting w' hw'
  . rw [Finder.register_promises]
    exact h.promises

theorem Right.erase (h : Right net cs a f) (transactionId : String) :
    Right net cs a (f.erase transactionId) :=
  ⟨fun w hw => h.waiting w (Finder.mem_erase.mp hw).1, h.promises⟩

theorem Right.setPromise (h : Right net cs a f) {id : String} {value : Option Peer}
    (hvalue : ∀ s ∈ value, net.IsMember s ∧ Clockwise.IsSuccessor net.ids id s.id) :
    Right net cs a (f.setPromise id value) := by
  refine ⟨h.waiting, ?_⟩
  intro id' s hs
  rcases List.mem_cons.mp hs with heq | hs
  . rw [Prod.mk.injEq] at heq
    rw [heq.1]
    exact hvalue s heq.2.symm
  . exact h.promises id' s hs

theorem Right.tracked_of_response (h : Right net cs a f) (hfresh : FreshIds cs) (hk : k ∈ cs)
    (hclient : k.client = a) {message : Message} (hmessage : Answers net k message)
    (hfind : f.find? message.header.correlationalId = some w) : ∃ peer, Tracked cs a w k peer := by
  rcases Finder.mem_of_find? hfind with ⟨hw, hid⟩
  rcases h.waiting w hw with ⟨k', peer, ht⟩
  have heq : k' = k := by
    apply hfresh.eq ht.mem hk (ht.client.trans hclient.symm)
    rw [ht.transactionId, hid, hmessage.correlationalId]
  exact ⟨peer, heq ▸ ht⟩

theorem Tracked.successor (ht : Tracked cs a w k peer) {message : Message}
    (hmessage : Answers net k message) {s : Peer} (hpeers : message.peers = [s]) :
    net.IsMember s ∧ Clockwise.IsSuccessor net.ids peer.id s.id := by
  rcases hmessage.successor peer ht.asks with ⟨s', hs', hmem, hsucc⟩
  rw [hpeers, List.cons.injEq] at hs'
  rw [hs'.1]
  exact ⟨hmem, hsucc⟩

theorem contract_keeps (hnet : net.WellFormed) :
    (contract net).Keeps react FreshIds (Sound net) := by
  refine ⟨fun _ _ => FreshIds.left, fun cs cs' a f _ h => h.grow cs', ?_⟩
  intro cs a f input f' sends hfresh _ hright hsound hexpects hreact
  have hright : Right net cs a f := hright
  have hreacts := react_reacts hnet hsound hexpects hreact
  have hnone (f' : Finder) (h : Right net cs a f') :
      Right net (cs ++ Rpc.opened a []) a f'
        ∧ (∀ k ∈ Rpc.opened a ([] : List (Rpc.Send Endpoint Message)),
        k.server ∈ net.endpoints ∧ ∃ peer, Asks k peer)
      ∧ ∀ c message, .response c message ∈ ([] : List (Rpc.Send Endpoint Message)) →
        ∃ k, cs[c]? = some k ∧ Answers net k message := by
    simpa [Rpc.opened] using h
  cases hreacts with
  | known hs hsucc =>
    apply hnone
    apply hright.setPromise
    rintro s ⟨⟩
    exact ⟨hs, hsucc⟩
  | @asked rt id transactionId target p hp =>
    let k : Connection := ⟨a, p.endpoint, ask ⟨id, "", ""⟩ transactionId⟩
    have hasks : Asks k ⟨id, "", ""⟩ := ⟨transactionId, rfl⟩
    refine ⟨hright.opens hasks rfl rfl (fun _ => rfl) (by simp), ?_, by simp⟩
    simp only [Rpc.opened, List.filterMap_cons, List.filterMap_nil, List.mem_singleton]
    rintro k rfl
    exact ⟨hp.1, _, hasks⟩
  | failed hfind hrequest =>
    apply hnone
    apply (hright.erase _).setPromise
    rintro s ⟨⟩
  | dropped hfind hrequest => exact hnone _ (hright.erase _)
  | @answered arrival c peer s transactionId hs hsucc =>
    refine ⟨?_, ?_, ?_⟩
    . exact hright.grow _
    . simp [Rpc.opened]
    . simp only [List.mem_singleton, Rpc.Send.response.injEq]
      rintro c' message ⟨rfl, rfl⟩
      cases hexpects with
      | @request _ k _ _ hc hserver hk hmessage =>
        have hasks : Asks k peer := ⟨transactionId, hmessage⟩
        refine ⟨k, hc, rfl, ?_, ?_⟩
        . rw [hmessage]
          rfl
        . intro peer' hpeer'
          rw [← hasks.unique hpeer']
          exact ⟨s, rfl, hs, hsucc⟩
  | @forwarded arrival c peer p transactionId hp hbetween =>
    cases hexpects with
    | @request _ k _ _ hc hserver hk hmessage =>
      let k' : Connection := ⟨a, p.endpoint, ask peer arrival.transactionId⟩
      have hasks : Asks k' peer := ⟨arrival.transactionId, rfl⟩
      refine ⟨hright.opens hasks rfl rfl (by simp) ?_, ?_, by simp⟩
      . rintro r ⟨⟩
        exact ⟨c, arrival.clientIp, k, by rw [hmessage], hc, hserver, ⟨transactionId, hmessage⟩⟩
      . simp only [Rpc.opened, List.filterMap_cons, List.filterMap_nil, List.mem_singleton]
        rintro k rfl
        exact ⟨hp.1, peer, hasks⟩
  | ignored hfind => exact hnone _ hright
  | @resolved arrival c message w s hfind hrequest hpeers =>
    cases hexpects with
    | @response _ k _ _ hc hclient hk hmessage =>
      rcases hright.tracked_of_response hfresh.left
        (List.mem_of_getElem? hc) hclient hmessage hfind with ⟨peer, ht⟩
      apply hnone
      apply (hright.erase _).setPromise
      rintro s ⟨⟩
      rw [← ht.own hrequest]
      exact ht.successor hmessage hpeers
  | @passedBack arrival c message w r s hfind hrequest hpeers =>
    cases hexpects with
    | @response _ k _ _ hc hclient hk hmessage =>
      rcases hright.tracked_of_response hfresh.left
        (List.mem_of_getElem? hc) hclient hmessage hfind with ⟨peer, ht⟩
      rcases ht.forwarded r hrequest with ⟨c₀, ip, k₀, rfl, hc₀, hserver, hasks⟩
      refine ⟨?_, ?_, ?_⟩
      . exact (hright.erase _).grow _
      . simp [Rpc.opened, RequestObject.toSend, RequestObject.respond]
      . simp only [RequestObject.toSend, RequestObject.respond, List.mem_singleton,
          Rpc.Send.response.injEq]
        rintro c' message' ⟨rfl, rfl⟩
        refine ⟨k₀, hc₀, rfl, rfl, ?_⟩
        intro peer' hpeer'
        rw [← hasks.unique hpeer']
        exact ⟨s, rfl, ht.successor hmessage hpeers⟩

theorem init_inv (net : Network) : (contract net).Inv init := by
  refine ⟨?_, fun _ => ⟨?_, ?_⟩, ?_, ?_⟩
  all_goals simp [init]

theorem exists_step_deliver (hnet : net.WellFormed) {s : State} (h : (contract net).Inv s) {i : Nat}
    (hi : i < s.packets.length) {arrival : Arrival}
    (hsound : Rpc.Contract.Allowed (Sound net) s (.deliver i arrival)) :
    ∃ s', step s (.deliver i arrival) = some s' := by
  have hexists : ∃ a input t, s.Occurs (.deliver i arrival : Event) a input t :=
    h.exists_occurs hi arrival
  rcases hexists with ⟨a, input, t, hoccurs⟩
  have hact : ∀ transactionId, input = .act (Act.timeOut transactionId) →
      ((s.node a).find? transactionId).isSome := by
    rintro transactionId rfl
    cases hoccurs
  rcases exists_reacts hnet (hsound a input t hoccurs) (h.expects hoccurs) hact with
    ⟨f', sends, hreact, _⟩
  rw [← hoccurs.node_eq] at hreact
  exact ⟨_, Rpc.State.step_of_occurs hoccurs hreact⟩

end Contract

/--
However lookups with fresh ids interleave, and whatever gets lost or times out between two messages:
while the tables that the nodes have at each step know the next node of the ring, every promise that
gets a value gets the successor of its id, every response on its way has the successor of the id
that it answers, and no node fails to handle a message.
-/
theorem lookups_correct {net : Network} (hnet : net.WellFormed) {events : List Event} {s : State}
    (hsound : Run.Along step (Rpc.Contract.Allowed (Sound net)) init events)
    (hexec : Run.exec step init events = some s) (hfresh : FreshIds s.connections) :
    (∀ a id p, (id, some p) ∈ (s.node a).promises →
        net.IsMember p ∧ Clockwise.IsSuccessor net.ids id p.id)
      ∧ (∀ c message, .response c message ∈ s.packets →
        ∃ k peer p, s.connections[c]? = some k ∧ Asks k peer
        ∧ message.peers = [p] ∧ net.IsMember p ∧ Clockwise.IsSuccessor net.ids peer.id p.id)
      ∧ ∀ i arrival, i < s.packets.length →
        Rpc.Contract.Allowed (Sound net) s (.deliver i arrival) →
        ∃ s', step s (.deliver i arrival) = some s' := by
  have hinv := (contract_keeps hnet).exec (init_inv net) hsound hexec hfresh
  refine ⟨?_, ?_, ?_⟩
  . intro a id p hp
    exact (hinv.node a).promises id p hp
  . intro c message hmem
    rcases hinv.response c message hmem with ⟨k, hk, hmessage⟩
    rcases (hinv.request k (List.mem_of_getElem? hk)).2 with ⟨peer, hasks⟩
    rcases hmessage.successor peer hasks with ⟨p, hpeers, hp, hsucc⟩
    exact ⟨k, peer, p, hk, hasks, hpeers, hp, hsucc⟩
  . intro i arrival hi hallowed
    exact exists_step_deliver hnet hinv hi hallowed

open Network in
def nextOnly (e : Endpoint) : RoutingTable Peer :=
  if e = nodeA.endpoint then
    ⟨nodeA, none, [nodeB]⟩
  else if e = nodeB.endpoint then
    ⟨nodeB, none, [nodeC]⟩
  else
    ⟨nodeC, none, [nodeA]⟩

open Network in
def oneLookup : List Event :=
  [.act nodeA.endpoint (.create (nextOnly nodeA.endpoint) "F" none "t0"),
    .deliver 0 ⟨nextOnly nodeB.endpoint, nodeA.ip, "t1"⟩,
    .deliver 0 ⟨nextOnly nodeC.endpoint, nodeB.ip, "t2"⟩,
    .deliver 0 ⟨nextOnly nodeB.endpoint, nodeC.ip, "t3"⟩,
    .deliver 0 ⟨nextOnly nodeA.endpoint, nodeB.ip, "t4"⟩]

theorem oneLookup_sound :
    Run.Along step (Rpc.Contract.Allowed (Sound Network.threeNodes)) init oneLookup := by
  decide +kernel

theorem exec_oneLookup :
    ∃ s, Run.exec step init oneLookup = some s ∧ FreshIds s.connections ∧ s.packets = []
    ∧ (s.node Network.nodeA.endpoint).promises = [("F", some Network.nodeA)] := by
  have hexec : (Run.exec step init oneLookup).isSome := by decide
  have hall : ∀ s ∈ Run.exec step init oneLookup, FreshIds s.connections ∧ s.packets = []
      ∧ (s.node Network.nodeA.endpoint).promises = [("F", some Network.nodeA)] := by
    decide
  rcases Option.isSome_iff_exists.mp hexec with ⟨s, hs⟩
  exact ⟨s, hs, hall s hs⟩

theorem lookups_correct_oneLookup :
    ∃ s, Run.exec step init oneLookup = some s
      ∧ Clockwise.IsSuccessor Network.threeNodes.ids "F" Network.nodeA.id := by
  rcases exec_oneLookup with ⟨s, hs, hfresh, _, hpromises⟩
  have hcorrect := lookups_correct Network.threeNodes_settled.toWellFormed oneLookup_sound hs hfresh
  refine ⟨s, hs, (hcorrect.1 Network.nodeA.endpoint "F" Network.nodeA ?_).2⟩
  rw [hpromises]
  exact List.mem_singleton_self _

end Lookups

end Peerpaste
