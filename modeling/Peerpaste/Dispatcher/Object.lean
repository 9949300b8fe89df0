import Peerpaste.Messages.Exchange
import Peerpaste.Messages.FindSuccessor
import Peerpaste.Messages.GetFile

/-!
This module contains the message objects with their promises: what the response handlers,
`handle_failed`, `check_state` and the destructors do to one of them.
-/

namespace Peerpaste

inductive Promise where
  | peer (value : Option Peer)
  | peers (value : Option (List Peer))
  | state (value : MessageState)
  deriving DecidableEq, Repr

/--
How a thread of the node ends early: something is taken that is not there (`front()` of an empty
vector, `value()` of an empty optional, a null peer, the place behind the first element of an empty
list), or the value of a promise is set a second time, which throws.
-/
inductive Crash where
  | missing
  | promiseAlreadySatisfied
  deriving DecidableEq, Repr

def Crash.ofOption : Option α → Except Crash α
  | none => .error .missing
  | some a => .ok a

inductive HandlerFunction where
  | handleResponse
  | handleForwardedResponse
  deriving DecidableEq, Repr

/--
`MessagingBase` with the promise. `request` is `request_`, `getFile` has the streams of a `GetFile`,
whose state is the one of the object.
-/
structure MessageObject where
  type : MessageType
  request : Option RequestObject := none
  getFile : Option GetFile := none
  state : MessageState := .valid
  isDone : Bool := false
  promise : Option Promise := none
  deriving DecidableEq, Repr

structure DependencyObject extends MessageObject where
  number : Nat
  isEssential : Bool
  deriving DecidableEq, Repr

/--
An element of `active_messages_`. `target` is the one of a `Join` and `flag` the `flag_` of a
`BroadcastFilelist`.
-/
structure ActiveObject extends MessageObject where
  target : Peer := default
  flag : Bool := true
  dependencies : List DependencyObject := []
  deriving DecidableEq, Repr

structure Responded where
  node : Node
  storage : StaticStorage
  object : MessageObject
  notifies : Bool

namespace MessageObject

def setPromise (o : MessageObject) (value : Promise) : Except Crash MessageObject :=
  if o.promise.isSome then
    .error .promiseAlreadySatisfied
  else
    .ok { o with promise := some value }

def finish (o : MessageObject) (state : MessageState) : MessageObject :=
  { o with state := state, isDone := true }

def toGetFile (o : MessageObject) : Option GetFile :=
  o.getFile.map fun g => { g with state := o.state, isDone := o.isDone }

def withGetFile (o : MessageObject) (g : GetFile) : MessageObject :=
  { o with getFile := some g, state := g.state, isDone := g.isDone }

def answer (node : Node) (storage : StaticStorage) (o : MessageObject) (h : Handled)
    (value : Promise) :
    Except Crash Responded := do
  let o ← { o with state := h.state }.setPromise value
  return ⟨{ node with routingTable := h.routingTable }, storage,
    { o with isDone := h.isDone }, true⟩

def handleForwardedResponse (node : Node) (storage : StaticStorage) (o : MessageObject)
    (response : RequestObject) (transactionId : String) : Except Crash Responded :=
  match o.request with
  | none => .ok ⟨node, storage, o.finish .failed, true⟩
  | some request => do
    let h ← Crash.ofOption
      (FindSuccessor.handleForwardedResponse node.routingTable request response transactionId)
    return ⟨{ node with sendQueue := node.sendQueue ++ h.notified }, storage, o.finish .done, true⟩

/--
`handle_response` of the class of the object. `Join`, `Stabilize` and `BroadcastFilelist` do nothing
there.
-/
def handleResponse (sha256 : List UInt8 → String) (node : Node) (storage : StaticStorage)
    (o : MessageObject)
    (response : RequestObject) : Except Crash Responded :=
  let rt := node.routingTable
  match o.type with
  | .query =>
    let (h, peer) := Query.handleResponse rt response
    answer node storage o h (.peer peer)
  | .findSuccessor => do
    let (h, successor) ← Crash.ofOption (FindSuccessor.handleResponse rt response)
    answer node storage o h (.peer (some successor))
  | .getSuccessorList =>
    let (h, peers) := GetSuccessorList.handleResponse rt response
    answer node storage o h (.peers (some peers))
  | .getSelfAndSuccList =>
    let (h, peers) := GetSelfAndSuccList.handleResponse rt response
    answer node storage o h (.peers (if response.message.isRequest then none else some peers))
  | .getPredAndSuccList =>
    let (h, peers) := GetPredAndSuccList.handleResponse rt response
    answer node storage o h (.peers (if response.message.isRequest then none else some peers))
  | .notification =>
    let h := Notification.handleResponse rt
    .ok ⟨node, storage, { o with state := h.state, isDone := h.isDone }, true⟩
  | .checkPredecessor =>
    let (node, c) := CheckPredecessor.handleResponse node ⟨none, o.state, o.isDone⟩ response
    .ok ⟨node, storage, { o with state := c.state, isDone := c.isDone },
      !response.message.isRequest⟩
  | .getFile => do
    let g ← Crash.ofOption o.toGetFile
    let h ← Crash.ofOption (g.handleResponse sha256 storage response)
    return ⟨node, h.storage, o.withGetFile h.getFile, true⟩
  | _ => .ok ⟨node, storage, o, false⟩

def call (sha256 : List UInt8 → String) (node : Node) (storage : StaticStorage) (o : MessageObject)
    (function : HandlerFunction) (response : RequestObject) (transactionId : String) :
    Except Crash Responded :=
  match function with
  | .handleResponse => o.handleResponse sha256 node storage response
  | .handleForwardedResponse => o.handleForwardedResponse node storage response transactionId

def handleFailed (node : Node) (o : MessageObject) (dependencies : Nat) :
    Except Crash (Node × MessageObject) :=
  match o.type with
  | .query => return (node, ← o.setPromise (.peer none))
  | .findSuccessor => return (node, ← o.setPromise (.peer none))
  | .getSuccessorList => return (node, { ← o.setPromise (.peers none) with state := .failed })
  | .getSelfAndSuccList => return (node, ← { o with state := .failed }.setPromise (.peers none))
  | .checkPredecessor =>
    let (node, c) := CheckPredecessor.handleFailed node ⟨none, o.state, o.isDone⟩
    .ok (node, { o with state := c.state })
  | .stabilize =>
    let rt := if dependencies = 1 then node.routingTable.popFront else node.routingTable
    .ok ({ node with routingTable := rt, stabilizeFlag := false }, { o with state := .failed })
  | _ => .ok (node, { o with state := .failed })

def checkState (node : Node) (o : MessageObject) (dependencies : Nat) (expired : Bool) :
    Except Crash (Node × MessageObject) :=
  if o.isDone then
    .ok (node, o)
  else if expired then
    handleFailed node (o.finish .timedOut) dependencies
  else
    .ok (node, o)

def checked (o : MessageObject) : MessageState :=
  if o.isDone then o.state else .valid

/--
The destructor. Those of four classes set the promise.
-/
def destroy (storage : StaticStorage) (o : MessageObject) : Except Crash StaticStorage := do
  if o.type ∈ [.notification, .checkPredecessor, .join, .stabilize] then
    let _ ← o.setPromise (.state o.state)
  return (o.getFile.bind (·.outputFile)).elim storage (·.destroy storage)

end MessageObject

namespace ActiveObject

/--
`std::any_of` over the dependencies, which have none themselves. It stops at the first one that
fails the object.
-/
def checkDependencies (node : Node) (expired : Nat → Bool) :
    List DependencyObject → Except Crash (Node × List DependencyObject × Bool)
  | [] => .ok (node, [], false)
  | d :: ds => do
    let (node, o) ← d.toMessageObject.checkState node 0 (expired d.number)
    let d := { d with toMessageObject := o }
    if d.isEssential && (o.checked == .failed || o.checked == .timedOut) then
      return (node, d :: ds, true)
    else
      let (node, ds, failed) ← checkDependencies node expired ds
      return (node, d :: ds, failed)

/--
`check_state`, where `expired none` says whether the time of the object is over and
`expired (some k)` whether the one of the dependency `k` is.
-/
def checkState (node : Node) (o : ActiveObject) (expired : Option Nat → Bool) :
    Except Crash (Node × ActiveObject) :=
  if o.isDone then
    .ok (node, o)
  else if expired none then do
    let (node, m) ← (o.toMessageObject.finish .timedOut).handleFailed node o.dependencies.length
    return (node, { o with toMessageObject := m })
  else do
    let (node, dependencies, failed) ← checkDependencies node (expired ∘ some) o.dependencies
    let o := { o with dependencies := dependencies }
    if failed then
      let (node, m) ← o.toMessageObject.handleFailed node dependencies.length
      return (node, { o with toMessageObject := { m with isDone := true } })
    else
      return (node, o)

def find? (o : ActiveObject) (k : Nat) : Option DependencyObject :=
  o.dependencies.find? (·.number == k)

def replace (o : ActiveObject) (k : Nat) (m : MessageObject) : ActiveObject :=
  { o with
    dependencies := o.dependencies.map fun d => if d.number
      = k then { d with toMessageObject := m } else d }

def finish (o : ActiveObject) (state : MessageState) : ActiveObject :=
  { o with toMessageObject := o.toMessageObject.finish state }

end ActiveObject

end Peerpaste
