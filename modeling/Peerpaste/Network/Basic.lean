import Mathlib.Data.Finset.Image
import Peerpaste.Messages.Basic
import Peerpaste.Order.FiniteRing

/-!
This module contains networks: the nodes that listen somewhere, each with its routing table, and the
ring that their ids form.
-/

namespace Peerpaste

/--
Two nodes cannot listen on the same endpoint, so a network has one table for each endpoint in use.
-/
structure Network where
  endpoints : Finset Endpoint
  table : Endpoint → RoutingTable Peer

namespace Network

def selfAt (net : Network) (e : Endpoint) : Peer :=
  (net.table e).self.getD default

def IsMember (net : Network) (p : Peer) : Prop :=
  p.endpoint ∈ net.endpoints ∧ (net.table p.endpoint).self = some p

def ids (net : Network) : Finset String :=
  net.endpoints.image fun e => (net.selfAt e).id

structure WellFormed (net : Network) : Prop where
  self_eq : ∀ e ∈ net.endpoints, (net.table e).self = some (net.selfAt e)
  endpoint_selfAt : ∀ e ∈ net.endpoints, (net.selfAt e).endpoint = e
  eq_of_id_eq : ∀ e ∈ net.endpoints, ∀ e' ∈ net.endpoints,
    (net.selfAt e).id = (net.selfAt e').id → e = e'

def setTable (net : Network) (e : Endpoint) (rt : RoutingTable Peer) : Network :=
  { net with table := Function.update net.table e rt }

section

variable {net : Network} {p q : Peer} {e : Endpoint}

theorem IsMember.selfAt_eq (h : net.IsMember p) : net.selfAt p.endpoint = p := by
  simp [selfAt, h.2]

theorem IsMember.id_mem_ids (h : net.IsMember p) : p.id ∈ net.ids := by
  unfold ids
  rw [Finset.mem_image]
  exact ⟨p.endpoint, h.1, by rw [h.selfAt_eq]⟩

instance (net : Network) : Decidable net.WellFormed :=
  decidable_of_iff
    ((∀ e ∈ net.endpoints, (net.table e).self = some (net.selfAt e))
      ∧ (∀ e ∈ net.endpoints, (net.selfAt e).endpoint = e)
      ∧ ∀ e ∈ net.endpoints, ∀ e' ∈ net.endpoints, (net.selfAt e).id = (net.selfAt e').id → e = e')
    ⟨fun h => ⟨h.1, h.2.1, h.2.2⟩, fun h => ⟨h.1, h.2, h.3⟩⟩

instance (net : Network) (p : Peer) : Decidable (net.IsMember p) :=
  inferInstanceAs (Decidable (_ ∧ _))

theorem WellFormed.isMember_selfAt (hnet : net.WellFormed) (he : e ∈ net.endpoints) :
    net.IsMember (net.selfAt e) := by
  unfold IsMember
  rw [hnet.endpoint_selfAt e he]
  exact ⟨he, hnet.self_eq e he⟩

theorem WellFormed.eq_of_mem_of_id_eq (hnet : net.WellFormed) (hp : net.IsMember p)
    (hq : net.IsMember q) (h : p.id = q.id) : p = q := by
  have := hnet.eq_of_id_eq _ hp.1 _ hq.1 (by rw [hp.selfAt_eq, hq.selfAt_eq, h])
  rw [← hp.selfAt_eq, this, hq.selfAt_eq]

theorem WellFormed.mem_ids (hnet : net.WellFormed) {id : String} :
    id ∈ net.ids ↔ ∃ p, net.IsMember p ∧ p.id = id := by
  constructor
  . intro hid
    rw [ids, Finset.mem_image] at hid
    rcases hid with ⟨e, he, rfl⟩
    exact ⟨net.selfAt e, hnet.isMember_selfAt he, rfl⟩
  . rintro ⟨p, hp, rfl⟩
    exact hp.id_mem_ids

theorem card_ids_le (net : Network) : net.ids.card ≤ net.endpoints.card := by
  exact Finset.card_image_le

@[simp]
theorem setTable_table_self (rt : RoutingTable Peer) : (net.setTable e rt).table e = rt := by
  simp [setTable]

@[simp]
theorem setTable_eq_self (net : Network) (e : Endpoint) : net.setTable e (net.table e) = net := by
  simp [setTable]

@[simp]
theorem setTable_setTable (rt rt' : RoutingTable Peer) :
    (net.setTable e rt).setTable e rt' = net.setTable e rt' := by
  simp [setTable]

theorem setTable_table_of_ne {e' : Endpoint} (h : e' ≠ e) (rt : RoutingTable Peer) :
    (net.setTable e rt).table e' = net.table e' := by
  simp [setTable, h]

end

end Network

end Peerpaste
