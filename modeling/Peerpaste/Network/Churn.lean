import Peerpaste.Network.Integration
import Peerpaste.Network.Recovery

/-!
This module contains whole histories of a ring: nodes join and crash, and between two changes the
nodes have the time to settle.
-/

namespace Peerpaste

namespace Network

inductive Change where
  | join (init m : Peer) (out : Nat → Outside)
  | crash (dead : List Peer)

def newcomer (sha256 : String → String) (init : Peer) (out : Nat → Outside) : Peer :=
  queried sha256 (out 2).session init

def change (sha256 : String → String) (net : Network) : Change → Option Network
  | .join init m out =>
    let n := newcomer sha256 init out
    (net.addNode n.endpoint (RoutingTable.init init)).joinRound sha256 out n.endpoint m.ip m.port
  | .crash dead => some (net.crash (endpointsOf dead))

/--
The changes that a ring copes with: the new node has an id and an endpoint of its own, and no more
nodes in a row are gone than the list of the node in front of them goes past.
-/
inductive Admissible (sha256 : String → String) (net : Network) : Change → Prop where
  | join {init m : Peer} {out : Nat → Outside} (hid : (newcomer sha256 init out).id ∉ net.ids)
      (hend : (newcomer sha256 init out).endpoint ∉ net.endpoints) (hm : net.IsMember m) :
      Admissible sha256 net (.join init m out)
  | crash {p s : Peer} {dead : List Peer} (houtage : net.Outage p dead s) :
      Admissible sha256 net (.crash dead)

def Change.members (sha256 : String → String) (members : Set Peer) : Change → Set Peer
  | .join init _ out => insert (newcomer sha256 init out) members
  | .crash dead => members \ {q | q ∈ dead}

structure Era where
  change : Change
  epochs : List (List Round)

def era (sha256 : String → String) (net : Network) (era : Era) : Option Network := do
  let net ← net.change sha256 era.change
  Run.exec (round sha256) net era.epochs.flatten

structure Calm (sha256 : String → String) (net : Network) (era : Era) : Prop where
  admissible : net.Admissible sha256 era.change
  isEpoch : ∀ net', net.change sha256 era.change = some net' →
    ∀ rounds ∈ era.epochs, IsEpoch net'.endpoints rounds
  length_le : 20 ≤ era.epochs.length

inductive History (sha256 : String → String) (net₀ : Network) : List Change → Network → Prop where
  | start : History sha256 net₀ [] net₀
  | era {changes : List Change} {net net' : Network} {era : Era}
      (h : History sha256 net₀ changes net) (hcalm : net.Calm sha256 era)
      (hera : net.era sha256 era = some net') :
      History sha256 net₀ (changes ++ [era.change]) net'

section

variable {net net₀ : Network} {sha256 : String → String} {changes : List Change}

theorem Ideal.era_join (hnet : net.Ideal) (hsha : ∀ text, sha256 text ≠ "") {init m : Peer}
    {out : Nat → Outside} {epochs : List (List Round)}
    (hcalm : net.Calm sha256 ⟨.join init m out, epochs⟩) :
    ∃ net', net.era sha256 ⟨.join init m out, epochs⟩ = some net' ∧ net'.Ideal
      ∧ ∀ q, net'.IsMember q ↔ q = newcomer sha256 init out ∨ net.IsMember q := by
  have hlength : 20 ≤ epochs.length := hcalm.length_le
  have hepochs := hcalm.isEpoch
  cases hcalm.admissible with | join hid hend hm
  rcases hnet.exists_joining sha256 hsha out rfl hid hend hm with
    ⟨p, s, net₁, hjoin, hends, hmembers, h⟩
  have hlength' : RoutingTable.succListSize + 1 ≤ epochs.length := by
    simp only [RoutingTable.succListSize]
    omega
  rcases h.exec_epochs sha256 epochs (hepochs net₁ hjoin) hlength' with ⟨net₂, hexec, hsame, hideal⟩
  have hchange : net.change sha256 (.join init m out) = some net₁ := hjoin
  refine ⟨net₂, ?_, hideal, ?_⟩
  . simp only [era, hchange, Option.bind_eq_bind, Option.bind_some]
    exact hexec
  . intro q
    rw [hsame.isMember_iff, hmembers q]
    rfl

theorem Ideal.era_crash (hnet : net.Ideal) {dead : List Peer} {epochs : List (List Round)}
    (hcalm : net.Calm sha256 ⟨.crash dead, epochs⟩) :
    ∃ net', net.era sha256 ⟨.crash dead, epochs⟩ = some net' ∧ net'.Ideal
      ∧ ∀ q, net'.IsMember q ↔ net.IsMember q ∧ q ∉ dead := by
  have hlength : 20 ≤ epochs.length := hcalm.length_le
  have hepochs := hcalm.isEpoch
  cases hcalm.admissible with | crash houtage
  have hlength' : dead.length + 2 + RoutingTable.succListSize ≤ epochs.length := by
    have hle := houtage.length_le
    simp only [RoutingTable.succListSize] at hle ⊢
    omega
  rcases houtage.exec_epochs hnet sha256 epochs (hepochs _ rfl) hlength' with
    ⟨net', hexec, hsame, hideal⟩
  refine ⟨net', hexec, hideal, ?_⟩
  intro q
  rw [hsame.isMember_iff, houtage.isMember_iff]

theorem Ideal.era (hnet : net.Ideal) (hsha : ∀ text, sha256 text ≠ "") {era : Era}
    (hcalm : net.Calm sha256 era) :
    ∃ net', net.era sha256 era = some net' ∧ net'.Ideal
      ∧ ∀ q, net'.IsMember q ↔ q ∈ era.change.members sha256 {q | net.IsMember q} := by
  rcases era with ⟨change, epochs⟩
  cases change with
  | join init m out => exact hnet.era_join hsha hcalm
  | crash dead => exact hnet.era_crash hcalm

theorem History.ideal (h : History sha256 net₀ changes net) (hnet : net₀.Ideal)
    (hsha : ∀ text, sha256 text ≠ "") :
    net.Ideal ∧ ∀ q, net.IsMember q
    ↔ q ∈ changes.foldl (Change.members sha256) {q | net₀.IsMember q} := by
  induction h with
  | start => exact ⟨hnet, fun q => Iff.rfl⟩
  | @era changes net net' era h hcalm hera ih =>
    rcases ih with ⟨hideal, hmembers⟩
    rcases hideal.era hsha hcalm with ⟨net'', hera', hideal', hmembers'⟩
    rw [hera, Option.some.injEq] at hera'
    subst hera'
    refine ⟨hideal', ?_⟩
    intro q
    have hset : {q | net.IsMember q} = changes.foldl (Change.members sha256)
      {q | net₀.IsMember q} :=
      Set.ext hmembers
    rw [hmembers' q, hset, List.foldl_append]
    rfl

end

/--
A ring takes any number of changes, as long as each is admissible and followed by the time to
settle: the next calm era is always possible, the members are those that have joined and have not
crashed, and a lookup from any of them returns the successor of any id.
-/
theorem churn {net₀ net : Network} (hnet : net₀.Ideal) (sha256 : String → String)
    (hsha : ∀ text, sha256 text ≠ "") {changes : List Change}
    (h : History sha256 net₀ changes net) :
    net.Ideal
      ∧ (∀ q, net.IsMember q ↔ q ∈ changes.foldl (Change.members sha256) {q | net₀.IsMember q})
      ∧ (∀ era, net.Calm sha256 era → ∃ net', net.era sha256 era = some net')
      ∧ ∀ hops start message peer, start ∈ net.endpoints → message.peers.head? = some peer →
        ∃ response s, net.lookup hops net.endpoints.card start message = some response
          ∧ response.peers = [s] ∧ net.IsMember s ∧ Clockwise.IsSuccessor net.ids peer.id s.id := by
  rcases h.ideal hnet hsha with ⟨hideal, hmembers⟩
  refine ⟨hideal, hmembers, ?_, ?_⟩
  . intro era hcalm
    rcases hideal.era hsha hcalm with ⟨net', hera, _⟩
    exact ⟨net', hera⟩
  . intro hops start message peer hstart hpeer
    have hserves := serves_successor hideal.toWellFormed hideal.firstSuccessorsCorrect peer
    have hremaining := net.card_remaining_lt hideal.toWellFormed hstart peer.id
    rcases hserves.lookup hops _ start message hstart hpeer hremaining with
      ⟨response, s, hlookup, hpeers, hs, hsucc⟩
    exact ⟨response, s, hlookup, hpeers, hs, hsucc⟩

theorem churn_threeNodes :
    let out : Nat → Outside := fun _ =>
      ⟨"t1", "t2", ⟨0, "10.0.0.1"⟩, fun _ => ⟨⟨0, "10.0.0.1"⟩, "t3", "t4"⟩⟩
    let epoch := epochOf [nodeA.endpoint, nodeC.endpoint] out
    ∃ net, threeNodes.era (fun _ => nodeA.id) ⟨.crash [nodeB], List.replicate 20 epoch⟩ = some net
      ∧ net.Ideal ∧ ¬ net.IsMember nodeB ∧ net.IsMember nodeC := by
  intro out epoch
  have hid : nodeA.id ≠ "" := by decide
  have hends : (threeNodes.crash (endpointsOf [nodeB])).endpoints
      = [nodeA.endpoint, nodeC.endpoint].toFinset := by decide
  have hcalm : threeNodes.Calm (fun _ => nodeA.id) ⟨.crash [nodeB], List.replicate 20 epoch⟩ := by
    refine ⟨.crash threeNodes_outage, ?_, by decide⟩
    intro net' hnet'
    cases hnet'
    exact hends ▸ isEpoch_of_mem_replicate
  rcases (churn threeNodes_ideal (fun _ => nodeA.id) (fun _ => hid) .start).2.2.1 _ hcalm with
    ⟨net, hera⟩
  rcases churn threeNodes_ideal (fun _ => nodeA.id) (fun _ => hid) (.era .start hcalm hera) with
    ⟨hideal, hmembers, _⟩
  refine ⟨net, hera, hideal, ?_, ?_⟩
  . rw [hmembers]
    simp [Change.members]
  . rw [hmembers]
    have hmem : threeNodes.IsMember nodeC := by decide
    have hne : nodeC ≠ nodeB := by decide
    simp [Change.members, hmem, hne]

end Network

end Peerpaste
