import Mathlib.Data.List.TakeDrop
import Peerpaste.Message.Basic

/-!
This module contains the routing table: a node's own peer, its predecessor and its successor list.
-/

namespace Peerpaste

structure RoutingTable (T : Type) where
  self : Option T := none
  predecessor : Option T := none
  successorList : List T := []
  deriving DecidableEq, Repr

namespace RoutingTable

variable {T : Type}

def succListSize : Nat := 10

def tryGetSelf (rt : RoutingTable T) : Option T :=
  rt.self

def setSelf (rt : RoutingTable T) (self : T) : RoutingTable T :=
  { rt with self := some self }

def tryGetPredecessor (rt : RoutingTable T) : Option T :=
  rt.predecessor

def hasPredecessor (rt : RoutingTable T) : Bool :=
  rt.predecessor.isSome

def setPredecessor (rt : RoutingTable T) (predecessor : T) : RoutingTable T :=
  { rt with predecessor := some predecessor }

def resetPredecessor (rt : RoutingTable T) : RoutingTable T :=
  { rt with predecessor := none }

def tryGetSuccessor (rt : RoutingTable T) : Option T :=
  rt.successorList.head?

def setSuccessor (rt : RoutingTable T) (successor : T) : RoutingTable T :=
  match rt.successorList with
  | [] => { rt with successorList := [successor] }
  | _ :: tail => { rt with successorList := successor :: tail }

/--
`std::vector::resize`: the list is cut, or filled up with default constructed elements.
-/
def resize [Inhabited T] (l : List T) : List T :=
  l.takeD succListSize default

def replaceSuccessorList [Inhabited T] (rt : RoutingTable T) (newSuccList : List T) :
    RoutingTable T :=
  { rt with successorList := resize newSuccList }

/--
Insert the new list behind the successor. On an empty list the insertion point `begin() + 1` is past
the end and the behaviour undefined.
-/
def replaceAfterSuccessor [Inhabited T] (rt : RoutingTable T) (newSuccList : List T) :
    Option (RoutingTable T) :=
  match rt.successorList with
  | [] => none
  | successor :: tail =>
    some { rt with successorList := resize (successor :: (newSuccList ++ tail)) }

def size (rt : RoutingTable T) : Nat :=
  rt.successorList.length

def getPeers (rt : RoutingTable T) : List T :=
  rt.successorList

def popFront (rt : RoutingTable T) : RoutingTable T :=
  if rt.successorList.length ≤ 1 then
    rt
  else
    { rt with successorList := rt.successorList.tail }

end RoutingTable

end Peerpaste
