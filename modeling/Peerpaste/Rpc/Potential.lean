import Mathlib.Algebra.BigOperators.Group.Finset.Piecewise
import Mathlib.Algebra.Ring.Nat
import Peerpaste.Rpc.Basic

/-!
This module contains potentials of nodes that send each other requests: what each packet on its way
and each node can still cause, and how much of it a reaction takes and leaves.
-/

namespace Rpc

/--
What a request, a response and a node weigh. Only the given nodes count.
-/
structure Measure (α : Type u) (σ : Type w) (μ : Type v) where
  nodes : Finset α
  request : Connection α μ → Nat
  response : μ → Nat
  node : σ → Nat

namespace Measure

variable {α : Type u} {σ : Type w} {μ : Type v} {ε : Type x} {ω : Type y}

def packet (M : Measure α σ μ) (cs : List (Connection α μ)) : Packet μ → Nat
  | .request c => (cs[c]?.map M.request).getD 0
  | .response _ message => M.response message

def send (M : Measure α σ μ) (a : α) : Send α μ → Nat
  | .request server message => M.request ⟨a, server, message⟩
  | .response _ message => M.response message

def taken (M : Measure α σ μ) (cs : List (Connection α μ)) : Input μ ε ω → Nat
  | .act _ => 0
  | .request _ c _ => M.packet cs (.request c)
  | .response _ c message => M.packet cs (.response c message)

def packets (M : Measure α σ μ) (s : State α σ μ) : Nat :=
  (s.packets.map (M.packet s.connections)).sum

def potential (M : Measure α σ μ) (s : State α σ μ) : Nat :=
  M.packets s + ∑ a ∈ M.nodes, M.node (s.node a)

variable {M : Measure α σ μ} {s t : State α σ μ} {e : Event α ε ω} {a : α} {input : Input μ ε ω}

theorem sum_eraseIdx {ps : List (Packet μ)} {i : Nat} {p : Packet μ} (hi : ps[i]? = some p)
    (f : Packet μ → Nat) :
    (ps.map f).sum = f p + ((ps.eraseIdx i).map f).sum := by
  rcases List.getElem?_eq_some_iff.mp hi with ⟨hlt, rfl⟩
  have hperm := (List.getElem_cons_eraseIdx_perm hlt).map f
  rw [← hperm.sum_eq, List.map_cons, List.sum_cons]

theorem packets_of_occurs (h : s.Occurs e a input t) :
    M.packets s = M.taken s.connections input + M.packets t := by
  cases h with
  | act => exact (Nat.zero_add _).symm
  | request w hi hc => exact sum_eraseIdx hi _
  | response w hi hc => exact sum_eraseIdx hi _

theorem packet_append {cs : List (Connection α μ)} {p : Packet μ}
    (hp : ∀ c, p = .request c → c < cs.length) (cs' : List (Connection α μ)) :
    M.packet (cs ++ cs') p = M.packet cs p := by
  cases p with
  | request c =>
    simp only [packet]
    rw [List.getElem?_append_left (hp c rfl)]
  | response c message => rfl

theorem sum_posted (a : α) (cs : List (Connection α μ)) (sends : List (Send α μ)) :
    ((posted cs.length sends).map (M.packet (cs ++ opened a sends))).sum
      = (sends.map (M.send a)).sum := by
  induction sends generalizing cs with
  | nil => rfl
  | cons send sends ih =>
    cases send with
    | request server message =>
      have := ih (cs ++ [⟨a, server, message⟩])
      simp only [List.length_append, List.length_singleton, List.append_assoc,
        List.singleton_append] at this
      simp only [posted, List.map_cons, List.sum_cons, opened, List.filterMap_cons] at this ⊢
      rw [this]
      simp [packet, send]
    | response c message =>
      have := ih cs
      simp only [posted, List.map_cons, List.sum_cons, opened, List.filterMap_cons] at this ⊢
      rw [this]
      rfl

theorem packets_postAll (hnumbered : ∀ c, .request c ∈ s.packets → c < s.connections.length) (a : α)
    (sends : List (Send α μ)) :
    M.packets (s.postAll a sends) = M.packets s + (sends.map (M.send a)).sum := by
  unfold packets
  rw [State.postAll_packets, State.postAll_connections, List.map_append,
    List.sum_append, sum_posted]
  congr 2
  apply List.map_congr_left
  intro p hp
  apply packet_append
  rintro c rfl
  exact hnumbered c hp

theorem potential_lose {i : Nat} (hi : i < s.packets.length) :
    M.potential { s with packets := s.packets.eraseIdx i } + M.packet s.connections s.packets[i]
      = M.potential s := by
  have := sum_eraseIdx (List.getElem?_eq_getElem hi) (M.packet s.connections)
  simp only [potential, packets]
  omega

variable [DecidableEq α]

theorem sum_node_update (node : α → σ) (ha : a ∈ M.nodes) (b : σ) :
    ∑ x ∈ M.nodes, M.node (Function.update node a b x) + M.node (node a)
      = ∑ x ∈ M.nodes, M.node (node x) + M.node b := by
  have hcomp : (fun x => M.node (Function.update node a b x))
    = Function.update (fun x => M.node (node x)) a (M.node b) := by
    funext x
    simp only [Function.update_apply]
    split
    . rfl
    . rfl
  rw [hcomp, Finset.sum_update_of_mem ha, ← Finset.erase_eq, ← Finset.add_sum_erase M.nodes _ ha]
  omega

theorem sum_node_update_of_notMem (node : α → σ) (ha : a ∉ M.nodes) (b : σ) :
    ∑ x ∈ M.nodes, M.node (Function.update node a b x) = ∑ x ∈ M.nodes, M.node (node x) := by
  apply Finset.sum_congr rfl
  intro x hx
  rw [Function.update_of_ne]
  rintro rfl
  exact ha hx

theorem potential_le {node : σ} {sends : List (Send α μ)} {cost gain : Nat}
    (hnumbered : ∀ c, .request c ∈ s.packets → c < s.connections.length)
    (hoccurs : s.Occurs e a input t)
    (hle : M.node node + (sends.map (M.send a)).sum + cost
      ≤ M.node (s.node a) + M.taken s.connections input + gain)
    (hmem : a ∉ M.nodes → (sends.map (M.send a)).sum + cost ≤ M.taken s.connections input + gain) :
    M.potential ({ t with node := Function.update t.node a node }.postAll a sends) + cost
      ≤ M.potential s + gain := by
  have hpackets : M.packets ({ t with node := Function.update t.node a node }.postAll a sends)
      = M.packets t + (sends.map (M.send a)).sum := by
    refine packets_postAll ?_ a sends
    intro c hc
    rw [hoccurs.connections_eq]
    exact hnumbered c (hoccurs.packets_subset hc)
  have hpotential : M.potential ({ t with node := Function.update t.node a node }.postAll a sends)
      = M.packets t + (sends.map (M.send a)).sum + ∑ x ∈ M.nodes,
        M.node (Function.update s.node a node x) := by
    rw [potential, hpackets, State.postAll_node, hoccurs.node_eq]
  rw [hpotential, potential, packets_of_occurs (M := M) hoccurs]
  by_cases ha : a ∈ M.nodes
  . have := sum_node_update s.node ha node
    omega
  . have := hmem ha
    rw [sum_node_update_of_notMem s.node ha]
    omega

end Measure

end Rpc
