import Peerpaste.Dispatcher.Basic
import Peerpaste.Network.Lookup
import Peerpaste.Rpc.Basic

/-!
This module contains lookups as messages between nodes: each node has `FindSuccessor` objects that
wait for a response, and answers or forwards what others ask it, with whatever routing table it has
by then.
-/

namespace Peerpaste

/--
Where the sending thread writes a message to: a new connection to a peer, or the one of a session.
-/
def RequestObject.toSend (r : RequestObject) : Rpc.Send Endpoint Message :=
  match r.connection with
  | .peer p => .request p.endpoint r.message
  | .session s => .response s.id r.message

namespace Lookups

/--
A `FindSuccessor` object with a handler in the registry, which is found by the id of the request
that the object has sent. `id` is `id_`, `request` is `request_`.
-/
structure Waiting where
  transactionId : String
  id : String
  request : Option RequestObject := none
  deriving DecidableEq, Repr

/--
The objects of a node, and the ids that objects of its own have asked for with the values of their
promises.
-/
structure Finder where
  waiting : List Waiting := []
  promises : List (String × Option Peer) := []
  deriving DecidableEq, Repr

inductive Act where
  | create (rt : RoutingTable Peer) (id : String) (target : Option Peer) (transactionId : String)
  | timeOut (transactionId : String)

/--
The routing table that a node has when a message arrives, the remote address of the connection and
the transaction id of the message that the node sends then.
-/
structure Arrival where
  table : RoutingTable Peer
  clientIp : String
  transactionId : String

namespace Finder

def find? (f : Finder) (transactionId : String) : Option Waiting :=
  f.waiting.find? (·.transactionId == transactionId)

/--
`active_handlers_.insert`, which leaves a handler that has the id already.
-/
def register (f : Finder) (w : Waiting) : Finder :=
  if (f.find? w.transactionId).isSome then f else { f with waiting := w :: f.waiting }

def erase (f : Finder) (transactionId : String) : Finder :=
  { f with waiting := f.waiting.filter (·.transactionId != transactionId) }

def setPromise (f : Finder) (id : String) (value : Option Peer) : Finder :=
  { f with promises := (id, value) :: f.promises }

/--
An object of the node itself. If the node knows the answer, the promise is set at once.
-/
def create (f : Finder) (rt : RoutingTable Peer) (id : String) (target : Option Peer)
    (transactionId : String) : Option (Finder × List (Rpc.Send Endpoint Message)) := do
  let (handled, promise) ← FindSuccessor.createRequest rt id target transactionId
  if promise.isSome then
    return (f.setPromise id promise, [])
  else
    return (f.register ⟨transactionId, id, none⟩, handled.notified.map RequestObject.toSend)

/--
`handle_failed` sets the promise of the object, which nobody waits for if the object handles a
request.
-/
def timeOut (f : Finder) (transactionId : String) : Option Finder :=
  (f.find? transactionId).map fun w =>
    match w.request with
    | none => (f.erase transactionId).setPromise w.id none
    | some _ => f.erase transactionId

def handleRequest (f : Finder) (arrival : Arrival) (request : RequestObject) :
    Option (Finder × List (Rpc.Send Endpoint Message)) := do
  let handled ← FindSuccessor.handleRequest arrival.table request arrival.transactionId
  let sends := handled.notified.map RequestObject.toSend
  if handled.isDone then
    return (f, sends)
  else
    return (f.register ⟨arrival.transactionId, "", some request⟩, sends)

def handleResponse (f : Finder) (arrival : Arrival) (response : RequestObject) :
    Option (Finder × List (Rpc.Send Endpoint Message)) :=
  let correlationalId := response.message.header.correlationalId
  match f.find? correlationalId with
  | none => some (f, [])
  | some ⟨_, id, none⟩ => do
    let (_, successor) ← FindSuccessor.handleResponse arrival.table response
    return ((f.erase correlationalId).setPromise id (some successor), [])
  | some ⟨_, _, some request⟩ => do
    let handled ←
      FindSuccessor.handleForwardedResponse arrival.table request response arrival.transactionId
    return (f.erase correlationalId, handled.notified.map RequestObject.toSend)

def dispatch (f : Finder) (arrival : Arrival) (message : RequestObject) :
    Option (Finder × List (Rpc.Send Endpoint Message)) :=
  if message.message.isRequest then
    if MessageFactory.createFromRequest message = some .findSuccessor then
      f.handleRequest arrival message
    else
      none
  else
    f.handleResponse arrival message

end Finder

def react (_ : Endpoint) (f : Finder) :
    Rpc.Input Message Act Arrival → Option (Finder × List (Rpc.Send Endpoint Message))
  | .act (.create rt id target transactionId) => f.create rt id target transactionId
  | .act (.timeOut transactionId) => (f.timeOut transactionId).map (·, [])
  | .request arrival c message => f.dispatch arrival ⟨message, .session ⟨c, arrival.clientIp⟩⟩
  | .response arrival c message => f.dispatch arrival ⟨message, .session ⟨c, arrival.clientIp⟩⟩

abbrev State := Rpc.State Endpoint Finder Message

abbrev Event := Rpc.Event Endpoint Act Arrival

def init : State where
  node _ := {}
  connections := []
  packets := []

def step (s : State) (e : Event) : Option State :=
  Rpc.State.step react s e

end Lookups

structure Network.Knows (net : Network) (e : Endpoint) (rt : RoutingTable Peer) : Prop where
  mem : e ∈ net.endpoints
  self_eq : rt.self = some (net.selfAt e)
  successor : ∃ s, rt.tryGetSuccessor = some s ∧ Clockwise.IsNext net.ids (net.selfAt e).id s.id
  isMember : ∀ p ∈ rt.getPeers, net.IsMember p

instance (net : Network) (e : Endpoint) (rt : RoutingTable Peer) : Decidable (net.Knows e rt) :=
  decidable_of_iff
    (e ∈ net.endpoints ∧ rt.self = some (net.selfAt e)
      ∧ (∃ s ∈ rt.tryGetSuccessor, Clockwise.IsNext net.ids (net.selfAt e).id s.id)
      ∧ ∀ p ∈ rt.getPeers, net.IsMember p)
    ⟨fun h => ⟨h.1, h.2.1, h.2.2.1, h.2.2.2⟩, fun h => ⟨h.mem, h.self_eq, h.successor, h.isMember⟩⟩

namespace FindSuccessor

variable {net : Network} {e : Endpoint} {rt : RoutingTable Peer}

theorem findSuccessor_cases (hnet : net.WellFormed) (h : net.Knows e rt) (id : String) :
    (∃ s, findSuccessor rt id = some s ∧ net.IsMember s ∧ Clockwise.IsSuccessor net.ids id s.id)
      ∨
    (findSuccessor rt id = none ∧ ∃ p, closestPrecedingNode rt id = some p ∧ net.IsMember p
      ∧ Clockwise.Between (net.selfAt e).id p.id id) := by
  rcases h.successor with ⟨s, hsucc, hnext⟩
  have hs : s ∈ rt.getPeers := List.mem_of_mem_head? hsucc
  have hself := hnet.isMember_selfAt h.mem
  rcases exists_closestPrecedingNode h.self_eq id with ⟨p, hp⟩
  have hfind := findSuccessor_eq h.self_eq hsucc hp
  split at hfind
  . next hreach => exact Or.inl ⟨s, hfind, h.isMember s hs, hnext.isSuccessor hreach⟩
  . next hreach =>
    split at hfind
    . next hid =>
      -- nobody is on the way, not even the next node, although that one is not there yet
      have hbetween := hnext.between_of_not_reached hself.id_mem_ids hreach
      rcases closestPrecedingNode_cases h.self_eq hp with ⟨_, hclosest⟩ | ⟨_, hnone⟩
      . exact absurd hid hclosest.ne_left
      . exact absurd hbetween (hnone s hs)
    . next hid =>
      right
      rcases closestPrecedingNode_cases h.self_eq hp with ⟨hlist, hbetween⟩ | ⟨heq, _⟩
      . exact ⟨hfind, p, hp, h.isMember p hlist, hbetween⟩
      . exact absurd (congrArg Peer.id heq) hid

end FindSuccessor

end Peerpaste
