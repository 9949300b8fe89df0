import Mathlib.Algebra.BigOperators.Ring.List
import Mathlib.Algebra.Ring.Nat
import Peerpaste.Lookups.Correct
import Peerpaste.Rpc.Potential
import Peerpaste.Run.Progress

/-!
This module contains how many messages lookups cause: each that a node begins sends at most two for
each node of the ring, whatever gets lost or times out.
-/

namespace Peerpaste

namespace Lookups

/--
How many messages a request can still cause: itself and its response, and the same for every node
that it can still be forwarded to.
-/
def reach (net : Network) (k : Connection) : Nat :=
  let id := (k.request.peers.head?.map Peer.id).getD ""
  2 * (Clockwise.remaining net.ids (net.selfAt k.server).id id).card + 2

def measure (net : Network) : Rpc.Measure Endpoint Finder Message where
  nodes := net.endpoints
  request := reach net
  response _ := 1
  node f := f.waiting.countP (·.request.isSome)

def arrivals : Event → Nat
  | .act _ _ => 0
  | .deliver _ _ => 1
  | .lose _ => 1

def creations : Event → Nat
  | .act _ (.create _ _ _ _) => 1
  | _ => 0

def taking : Rpc.Input Message Act Arrival → Nat
  | .act _ => 0
  | _ => 1

def beginning : Rpc.Input Message Act Arrival → Nat
  | .act (.create _ _ _ _) => 1
  | _ => 0

section Bound

variable {net : Network} {s s' : State} {e : Event} {a : Endpoint} {f f' : Finder} {w : Waiting}
  {input : Rpc.Input Message Act Arrival} {sends : List (Rpc.Send Endpoint Message)}

theorem reach_le (hnet : net.WellFormed) {p : Peer} (hp : net.IsMember p) (a : Endpoint)
    (message : Message) :
    reach net ⟨a, p.endpoint, message⟩ ≤ 2 * net.endpoints.card := by
  have := net.card_remaining_lt hnet hp.1 ((message.peers.head?.map Peer.id).getD "")
  unfold reach
  simp only
  omega

theorem reach_forward {k : Connection} {peer p : Peer} (hk : Asks k peer) (hp : net.IsMember p)
    (hbetween : Clockwise.Between (net.selfAt k.server).id p.id peer.id) (a : Endpoint)
    (transactionId : String) :
    reach net ⟨a, p.endpoint, ask peer transactionId⟩ + 2 ≤ reach net k := by
  rcases hk with ⟨_, hrequest⟩
  have := Clockwise.card_remaining_lt hp.id_mem_ids hbetween
  simp only [reach, hrequest, hp.selfAt_eq]
  simp only [ask, Message.createRequest_peers, List.head?_cons, Option.map_some, Option.getD_some]
  omega

theorem Finder.countP_register (p : Waiting → Bool) :
    (f.register w).waiting.countP p ≤ f.waiting.countP p + if p w then 1 else 0 := by
  unfold Finder.register
  split
  . exact Nat.le_add_right _ _
  . simp only [List.countP_cons]
    exact Nat.le_refl _

theorem Finder.countP_erase (p : Waiting → Bool) (transactionId : String) :
    (f.erase transactionId).waiting.countP p ≤ f.waiting.countP p :=
  List.filter_sublist.countP_le

theorem Finder.countP_erase_lt {p : Waiting → Bool} {transactionId : String}
    (hfind : f.find? transactionId = some w) (hp : p w) :
    (f.erase transactionId).waiting.countP p + 1 ≤ f.waiting.countP p := by
  rcases Finder.mem_of_find? hfind with ⟨hw, hid⟩
  have hsplit := List.countP_eq_countP_filter_add f.waiting p (·.transactionId != transactionId)
  have hpos : 0 < (f.waiting.filter fun w => !(w.transactionId != transactionId)).countP p := by
    rw [List.countP_pos_iff]
    refine ⟨w, ?_, hp⟩
    rw [List.mem_filter]
    exact ⟨hw, by simp [hid]⟩
  unfold Finder.erase
  simp only
  omega

theorem arrivals_of_occurs {t : State} (h : s.Occurs e a input t) : arrivals e = taking input := by
  cases h with
  | act => rfl
  | request => rfl
  | response => rfl

theorem creations_of_occurs {t : State} (h : s.Occurs e a input t) :
    creations e = beginning input := by
  cases h with
  | act _ e =>
    cases e with
    | create => rfl
    | timeOut => rfl
  | request => rfl
  | response => rfl

theorem Reacts.measure_le {cs : List Connection} (hnet : net.WellFormed)
    (h : Reacts net a f input f' sends) (hright : Right net cs a f)
    (hexpects : (contract net).Expects cs a input) :
    (measure net).node f' + (sends.map ((measure net).send a)).sum + taking input
      ≤ (measure net).node f + (measure net).taken cs
        input + 2 * net.endpoints.card * beginning input := by
  have hsend {p : Peer} (hp : net.IsMember p) (message : Message) :
      (measure net).send a (.request p.endpoint message) ≤ 2 * net.endpoints.card :=
        reach_le hnet hp a message
  cases h with
  | known hs hsucc => exact Nat.le_add_right _ _
  | @asked rt id transactionId target p hp =>
    have hnode : (measure net).node (f.register ⟨transactionId, id, none⟩) ≤ (measure net).node f :=
      Finder.countP_register _
    have := hsend hp (ask ⟨id, "", ""⟩ transactionId)
    simp only [List.map_cons, List.map_nil, List.sum_cons, List.sum_nil, taking, beginning,
      Rpc.Measure.taken]
    omega
  | @failed transactionId w hfind hrequest =>
    have hnode : (measure net).node ((f.erase transactionId).setPromise w.id none)
      ≤ (measure net).node f :=
      Finder.countP_erase _ _
    simp only [List.map_nil, List.sum_nil, taking, beginning]
    omega
  | @dropped transactionId w r hfind hrequest =>
    have hnode : (measure net).node (f.erase transactionId) ≤ (measure net).node f :=
      Finder.countP_erase _ _
    simp only [List.map_nil, List.sum_nil, taking, beginning]
    omega
  | @answered arrival c peer s₁ transactionId hs hsucc =>
    cases hexpects with
    | @request _ k _ _ hc hserver hk hmessage =>
      have htaken : 2 ≤ (measure net).packet cs (.request c) := by
        simp only [Rpc.Measure.packet, hc, measure, reach, Option.map_some, Option.getD_some]
        omega
      simp only [List.map_cons, List.map_nil, List.sum_cons, List.sum_nil, taking,
        Rpc.Measure.taken, Rpc.Measure.send, measure] at htaken ⊢
      omega
  | @forwarded arrival c peer p transactionId hp hbetween =>
    cases hexpects with
    | @request _ k _ _ hc hserver hk hmessage =>
      have htaken : (measure net).packet cs (.request c) = reach net k := by
        simp only [Rpc.Measure.packet, hc, measure, Option.map_some, Option.getD_some]
      have hforward :=
        reach_forward ⟨transactionId, hmessage⟩ hp (hserver ▸ hbetween) a arrival.transactionId
      have hnode : (measure net).node (f.register ⟨arrival.transactionId, "",
            some ⟨ask peer transactionId, .session ⟨c, arrival.clientIp⟩⟩⟩)
          ≤ (measure net).node f + 1 :=
        Finder.countP_register _
      simp only [List.map_cons, List.map_nil, List.sum_cons, List.sum_nil, taking,
        Rpc.Measure.taken, htaken]
      simp only [Rpc.Measure.send]
      simp only [measure] at hnode ⊢
      omega
  | ignored hfind =>
    simp only [List.map_nil, List.sum_nil, taking, Rpc.Measure.taken, Rpc.Measure.packet, measure]
    omega
  | @resolved arrival c message w s₁ hfind hrequest hpeers =>
    have hnode :
        (measure net).node ((f.erase message.header.correlationalId).setPromise w.id (some s₁))
          ≤ (measure net).node f :=
      Finder.countP_erase _ _
    simp only [List.map_nil, List.sum_nil, taking, Rpc.Measure.taken, Rpc.Measure.packet]
    simp only [measure] at hnode ⊢
    omega
  | @passedBack arrival c message w r s₁ hfind hrequest hpeers =>
    rcases hright.waiting w (Finder.mem_of_find? hfind).1 with ⟨k, peer, ht⟩
    rcases ht.forwarded r hrequest with ⟨c₀, ip, k₀, rfl, _⟩
    have hnode : (measure net).node (f.erase message.header.correlationalId) + 1
      ≤ (measure net).node f := by
      apply Finder.countP_erase_lt hfind
      rw [hrequest]
      rfl
    have hsent : (measure net).send a
        (RequestObject.toSend (.respond ⟨k₀.request, .session ⟨c₀, ip⟩⟩ [s₁] arrival.transactionId))
          = 1 := rfl
    have htaken : (measure net).taken cs
        (.response arrival c message : Rpc.Input Message Act Arrival) = 1 := rfl
    simp only [List.map_cons, List.map_nil, List.sum_cons, List.sum_nil, taking, hsent, htaken]
    omega

theorem one_le_packet (hinv : (contract net).Inv s) {p : Rpc.Packet Message} (hp : p ∈ s.packets) :
    1 ≤ (measure net).packet s.connections p := by
  cases p with
  | request c =>
    have hlt := hinv.numbered c hp
    simp only [Rpc.Measure.packet, List.getElem?_eq_getElem hlt, measure, reach, Option.map_some,
      Option.getD_some]
    omega
  | response c message => exact Nat.le_refl _

theorem length_le_potential (hinv : (contract net).Inv s) :
    s.packets.length ≤ (measure net).potential s := by
  have hone : ∀ x ∈ s.packets.map ((measure net).packet s.connections), 1 ≤ x := by
    intro x hx
    rcases List.mem_map.mp hx with ⟨p, hp, rfl⟩
    exact one_le_packet hinv hp
  have hsum := List.length_le_sum_of_one_le _ hone
  rw [List.length_map] at hsum
  exact hsum.trans (Nat.le_add_right _ _)

theorem potential_step (hnet : net.WellFormed) (hinv : (contract net).Inv s)
    (hallowed : Rpc.Contract.Allowed (Sound net) s e) (hstep : step s e = some s') :
    (measure net).potential s' + arrivals e
      ≤ (measure net).potential s + 2 * net.endpoints.card * creations e := by
  rcases Rpc.State.step_cases hstep with
    ⟨i, rfl, hi, rfl⟩ | ⟨a, input, t, f, sends, hoccurs, hreact, rfl⟩
  . have hlose : (measure net).potential { s with packets := s.packets.eraseIdx i }
        + (measure net).packet s.connections s.packets[i] = (measure net).potential s :=
      Rpc.Measure.potential_lose hi
    have := one_le_packet hinv (List.getElem_mem hi)
    simp only [arrivals, creations]
    omega
  . rw [hoccurs.node_eq] at hreact
    have hsound := hallowed a input t hoccurs
    have hexpects := hinv.expects hoccurs
    have hreacts := react_reacts hnet hsound hexpects hreact
    rw [arrivals_of_occurs hoccurs, creations_of_occurs hoccurs]
    refine Rpc.Measure.potential_le hinv.numbered hoccurs
      (hreacts.measure_le hnet (hinv.node a) hexpects) ?_
    intro ha
    cases input with
    | act e =>
      cases e with
      | create rt id target transactionId => exact absurd hsound.1.mem ha
      | timeOut transactionId =>
        cases hreacts with
        | failed => exact Nat.zero_le _
        | dropped => exact Nat.zero_le _
    | request arrival c message => exact absurd hsound.mem ha
    | response arrival c message => exact absurd hsound.mem ha

end Bound

/--
While the tables of the nodes know the next node of the ring and ids are fresh, whatever gets lost
or times out: `n` lookups send at most two messages for each of them and each node of the ring,
those included that got lost or are on their way.
-/
theorem lookups_bounded {net : Network} (hnet : net.WellFormed) {events : List Event} {s : State}
    (hsound : Run.Along step (Rpc.Contract.Allowed (Sound net)) init events)
    (hexec : Run.exec step init events = some s) (hfresh : FreshIds s.connections) :
    (events.map arrivals).sum + s.packets.length
      ≤ 2 * net.endpoints.card * (events.map creations).sum := by
  have hgood := Rpc.State.along_good (fun _ _ => FreshIds.left) hexec hfresh
  have hle : (measure net).potential s + (events.map arrivals).sum
      ≤ (measure net).potential init + (events.map fun e =>
        2 * net.endpoints.card * creations e).sum := by
    refine Run.exec_amortized ?_ (init_inv net) (hsound.and hgood) hexec
    intro t e t' ht hcond hstep
    exact ⟨(contract_keeps hnet).step ht hcond.1 hstep (hcond.2 t' hstep),
      potential_step hnet ht hcond.1 hstep⟩
  have hstart : (measure net).potential init = 0 := by
    simp [Rpc.Measure.potential, Rpc.Measure.packets, init, measure]
  have hinv := (contract_keeps hnet).exec (init_inv net) hsound hexec hfresh
  have hlength := length_le_potential hinv
  rw [List.sum_map_mul_left events creations (2 * net.endpoints.card)] at hle
  omega

theorem lookups_bounded_oneLookup :
    (oneLookup.map arrivals).sum ≤ 2 * Network.threeNodes.endpoints.card := by
  rcases exec_oneLookup with ⟨s, hs, hfresh, _, _⟩
  have hbound := lookups_bounded Network.threeNodes_settled.toWellFormed oneLookup_sound hs hfresh
  exact (Nat.le_add_right _ _).trans hbound

end Lookups

end Peerpaste
