import Peerpaste.Network.FixedPoint
import Peerpaste.Order.Last

/-!
This module contains how close `closest_preceding_node` gets: it takes the last entry of the
successor list that is in the interval, whichever nodes stand before it.
-/

namespace Peerpaste

namespace FindSuccessor

/--
The node itself exactly if no listed peer is strictly inside the interval, else a listed peer inside
that no other listed peer is closer than.
-/
def ReturnsClosest (rt : RoutingTable Peer) (self : Peer) (id : String) : Prop :=
  ∃ r, closestPrecedingNode rt id = some r
    ∧ (r = self ↔ ∀ q ∈ rt.getPeers, ¬ Clockwise.Between self.id q.id id)
    ∧ (r ≠ self → r ∈ rt.getPeers ∧ Clockwise.Between self.id r.id id
      ∧ ∀ q ∈ rt.getPeers, ¬ Clockwise.Between r.id q.id id)

variable {rt : RoutingTable Peer} {self : Peer}

theorem lastInside_getPeers (rt : RoutingTable Peer) (self : Peer) (id : String) :
    Clockwise.lastInside self.id (rt.getPeers.map Peer.id) id =
      (rt.getPeers.reverse.find? fun peer => util.between self.id peer.id id).map Peer.id := by
  have hpred : (fun peer : Peer => util.between self.id peer.id id)
      = fun peer => decide (Clockwise.Between self.id peer.id id) := by
    funext peer
    rw [Bool.eq_iff_iff, util.between_iff, decide_eq_true_iff]
  rw [Clockwise.lastInside, ← List.map_reverse, List.find?_map, hpred]
  rfl

theorem returnsClosest_iff_picksClosest (hself : rt.self = some self) (id : String) :
    ReturnsClosest rt self id ↔ Clockwise.PicksClosest self.id (rt.getPeers.map Peer.id) id := by
  have hresult : closestPrecedingNode rt id =
      some ((rt.getPeers.reverse.find? fun peer => util.between self.id peer.id id).getD self) := by
    simp only [closestPrecedingNode, RoutingTable.tryGetSelf, hself]
  have hinside := lastInside_getPeers rt self id
  unfold ReturnsClosest Clockwise.PicksClosest
  rw [hinside, hresult]
  cases hfind : rt.getPeers.reverse.find? fun peer => util.between self.id peer.id id with
  | none =>
    have hnone : ∀ q ∈ rt.getPeers, ¬ Clockwise.Between self.id q.id id := by
      intro q hq
      rw [List.find?_eq_none] at hfind
      rw [← util.between_iff]
      exact hfind q (List.mem_reverse.mpr hq)
    constructor
    . intro _ r hr
      cases hr
    . intro _
      exact ⟨self, rfl, by simpa using hnone, fun hne => absurd rfl hne⟩
  | some r =>
    have hr := List.mem_reverse.mp (List.mem_of_find?_eq_some hfind)
    have hfound := List.find?_some hfind
    have hbetween : Clockwise.Between self.id r.id id := by
      rw [← util.between_iff]
      exact hfound
    have hne : r ≠ self := by
      rintro rfl
      exact hbetween.ne_left rfl
    constructor
    . rintro ⟨r', hr', _, hclosest⟩ x hx y hy
      cases hr'
      cases hx
      rcases List.mem_map.mp hy with ⟨q, hq, rfl⟩
      exact (hclosest hne).2.2 q hq
    . intro hpicks
      refine ⟨r, rfl, ?_, ?_⟩
      . simp only [hne, false_iff]
        exact fun hall => hall r hr hbetween
      . intro _
        refine ⟨hr, hbetween, ?_⟩
        intro q hq
        exact hpicks r.id rfl q.id (List.mem_map.mpr ⟨q, hq, rfl⟩)

theorem returnsClosest_iff (hself : rt.self = some self) :
    (∀ id, ReturnsClosest rt self id)
      ↔
    (Clockwise.lastOccurrences self.id (rt.getPeers.map Peer.id)).Pairwise
      (Clockwise.Before self.id) := by
  rw [← Clockwise.picksClosest_iff]
  apply forall_congr'
  exact returnsClosest_iff_picksClosest hself

theorem returnsClosest_iff_twoNodes :
    let a : Peer := ⟨"A", "10.0.0.1", "6100"⟩
    let b : Peer := ⟨"B", "10.0.0.2", "6100"⟩
    let rt : RoutingTable Peer := ⟨some a, some b, [b, a, b, a, b, a, b, a, b, a]⟩
    (∀ id, ReturnsClosest rt a id)
      ↔
    (Clockwise.lastOccurrences a.id (rt.getPeers.map Peer.id)).Pairwise
    (Clockwise.Before a.id) := by
  intro a b rt
  exact returnsClosest_iff rfl

/--
In the settled ring of three nodes, `nodeA` goes to `nodeB` on its way to an id behind `nodeC`.
-/
theorem not_returnsClosest_threeNodes :
    Network.threeNodes.Settled
    ∧ ¬ ReturnsClosest (Network.threeNodes.table Network.nodeA.endpoint) Network.nodeA
      "E70141F509FA7F499AD74EC9AE250A4590780BCF8B19D215E21336D732310A9F" := by
  refine ⟨Network.threeNodes_settled, ?_⟩
  rintro ⟨r, hr, _, hclosest⟩
  have hrB : r = Network.nodeB := by
    have : closestPrecedingNode (Network.threeNodes.table Network.nodeA.endpoint)
        "E70141F509FA7F499AD74EC9AE250A4590780BCF8B19D215E21336D732310A9F"
          = some Network.nodeB := by
      decide
    rw [hr] at this
    exact Option.some.inj this
  subst hrB
  apply (hclosest (by decide)).2.2 Network.nodeC
  . decide
  . decide

end FindSuccessor

end Peerpaste
