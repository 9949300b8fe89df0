import Mathlib.Logic.Function.Basic
import Peerpaste.Messages.GetFile
import Peerpaste.Run.Basic

/-!
This module contains the transfers of a node: its store, the `GetFile` objects that receive files
and the steps that they take in any order, from the broadcast of a file list to the next process of
the node.
-/

namespace Peerpaste

structure Transfers where
  storage : StaticStorage
  active : Nat → Option GetFile
  next : Nat

namespace Transfers

def ofStorage (storage : StaticStorage) : Transfers where
  storage := storage
  active _ := none
  next := 0

inductive Event where
  | offer (target : Peer) (fileInfo : FileInfo) (transactionId : String)
  | response (i : Nat) (response : RequestObject)
  | destroy (i : Nat)
  | restart
  deriving DecidableEq, Repr

/--
What a node does with one file of a broadcast list.
-/
def offer (t : Transfers) (target : Peer) (fileInfo : FileInfo) (transactionId : String) :
    Transfers :=
  if t.storage.existsInternal fileInfo.fileName then
    t
  else
    let handled := (GetFile.ofFileInfo target fileInfo).createRequest t.storage transactionId
    { storage := handled.storage
      active := Function.update t.active t.next (some handled.getFile)
      next := t.next + 1 }

def handleResponse (sha256 : List UInt8 → String) (t : Transfers) (i : Nat)
    (response : RequestObject) :
    Option Transfers := do
  let g ← t.active i
  let handled ← g.handleResponse sha256 t.storage response
  return { t with
    storage := handled.storage, active := Function.update t.active i (some handled.getFile) }

/--
The destructor of an object, with the one of its output stream. A message may time out, so that this
can happen at any time.
-/
def destroy (t : Transfers) (i : Nat) : Option Transfers := do
  let g ← t.active i
  let storage := g.outputFile.elim t.storage (·.destroy t.storage)
  return { t with storage := storage, active := Function.update t.active i none }

def step (sha256 : List UInt8 → String) (t : Transfers) : Event → Option Transfers
  | .offer target fileInfo transactionId => some (t.offer target fileInfo transactionId)
  | .response i response => t.handleResponse sha256 i response
  | .destroy i => t.destroy i
  | .restart => some { t with storage := t.storage.restart sha256, active := fun _ => none }

end Transfers

namespace BroadcastFilelist

def createRequest (rt : RoutingTable Peer) (storage : StaticStorage) (transactionId : String) :
    MessageState × Option RequestObject :=
  match rt.tryGetSelf with
  | none => (.failed, none)
  | some self =>
    match rt.tryGetSuccessor with
    | none => (.failed, none)
    | some target =>
      let message :=
        { Message.createRequest "broadcast_filelist" [self] transactionId with
          files := storage.files }
      (.done, some ⟨message, .peer target⟩)

/--
The node passes the list on to its successor after it has requested the files that it does not have
from the peer that the broadcast started at.
-/
def handleRequest (rt : RoutingTable Peer) (t : Transfers) (request : RequestObject)
    (transactionId : String) (fileTransactionId : FileInfo → String) :
    Transfers × MessageState × Option RequestObject :=
  let fileList := request.message.files
  match rt.tryGetSelf with
  | none => (t, .failed, none)
  | some self =>
    if request.message.peers.any fun peer => peer.ip == self.ip && peer.port == self.port then
      (t, .done, none)
    else
      let peers := request.message.peers ++ [self]
      let t := fileList.foldl
        (fun t file => t.offer (peers.headD self) file (fileTransactionId file)) t
      match rt.tryGetSuccessor with
      | none => (t, .failed, none)
      | some target =>
        let message :=
          { Message.createRequest "broadcast_filelist" peers transactionId with files := fileList }
        (t, .done, some ⟨message, .peer target⟩)

end BroadcastFilelist

namespace Transfers

variable {sha256 : List UInt8 → String}

def Fresh (t : Transfers) : Prop :=
  ∀ i, t.next ≤ i → t.active i = none

theorem Fresh.step {t t' : Transfers} {e : Event} (h : t.Fresh)
    (hstep : t.step sha256 e = some t') :
    t'.Fresh := by
  intro i hi
  cases e with
  | offer target fileInfo transactionId =>
    simp only [Transfers.step, offer, Option.some.injEq] at hstep
    subst hstep
    split at hi
    . rename_i hexists
      rw [if_pos hexists]
      exact h i hi
    . rename_i hexists
      rw [if_neg hexists]
      dsimp only at hi ⊢
      rw [Function.update_of_ne (by omega)]
      exact h i (by omega)
  | response j response =>
    simp only [Transfers.step, handleResponse, Option.bind_eq_bind, Option.bind_eq_some_iff]
      at hstep
    rcases hstep with ⟨g, hg, handled, -, ht'⟩
    cases ht'
    have hj : i ≠ j := by
      rintro rfl
      rw [h i hi] at hg
      cases hg
    exact (Function.update_of_ne hj _ _).trans (h i hi)
  | destroy j =>
    simp only [Transfers.step, destroy, Option.bind_eq_bind, Option.bind_eq_some_iff] at hstep
    rcases hstep with ⟨g, hg, ht'⟩
    cases ht'
    by_cases hj : i = j
    . rw [hj]
      exact Function.update_self _ _ _
    . exact (Function.update_of_ne hj _ _).trans (h i hi)
  | restart =>
    cases hstep
    rfl

theorem exec_offers (t : Transfers) (target : Peer) (files : List FileInfo)
    (transactionId : FileInfo → String) :
    Run.exec (step sha256) t (files.map fun file => .offer target file (transactionId file)) =
      some (files.foldl (fun t file => t.offer target file (transactionId file)) t) := by
  induction files generalizing t with
  | nil => rfl
  | cons file files ih =>
    simp only [List.map_cons, Run.exec_cons, List.foldl_cons]
    exact ih _

theorem exec_handleRequest (rt : RoutingTable Peer) (t : Transfers) (request : RequestObject)
    (transactionId : String) (fileTransactionId : FileInfo → String) :
    ∃ events,
      Run.exec (step sha256) t events =
          some (BroadcastFilelist.handleRequest rt t request transactionId fileTransactionId).1
        ∧
      ∀ e ∈ events, ∃ target, ∃ file ∈ request.message.files,
        e = .offer target file (fileTransactionId file) := by
  unfold BroadcastFilelist.handleRequest
  cases rt.tryGetSelf with
  | none => exact ⟨[], rfl, by simp⟩
  | some self =>
    dsimp only
    split
    . exact ⟨[], rfl, by simp⟩
    . refine ⟨_, (exec_offers t ((request.message.peers ++ [self]).headD self) request.message.files
        fileTransactionId).trans ?_, ?_⟩
      . cases rt.tryGetSuccessor <;> rfl
      . intro e he
        rw [List.mem_map] at he
        rcases he with ⟨file, hfile, rfl⟩
        exact ⟨_, file, hfile, rfl⟩

end Transfers

end Peerpaste
