import Mathlib.Logic.Function.Basic
import Peerpaste.Dispatcher.Object
import Peerpaste.Message.Converter
import Peerpaste.Registry.Delivery
import Peerpaste.RoutingTable.Invariant

/-!
This module contains the dispatcher of a node with everything that its messages reach: the routing
table, the store, the registry of handlers and all message objects, which the chord thread checks
and cleans up meanwhile.
-/

namespace Peerpaste

/--
Where a message object is: in `active_messages_`, or in `dependencies_` of one that is there.
-/
structure Address where
  object : Nat
  dependency : Option Nat := none
  deriving DecidableEq, Repr

inductive Invocation where
  | request (type : MessageType) (request : RequestObject)
  | response (handler : HandlerObject HandlerFunction Address) (response : RequestObject)
  deriving DecidableEq, Repr

/--
The objects are numbered in the order of their creation, dependencies included.
-/
structure MessageDispatcher where
  node : Node
  storage : StaticStorage
  activeHandlers : ActiveHandlers HandlerFunction Address
  activeMessages : Nat → Option ActiveObject
  next : Nat
  taken : Option Invocation

/--
`create_from_request`, of which the type of the object is all that depends on the request.
-/
def MessageFactory.createFromRequest (request : RequestObject) : Option MessageType :=
  let type := request.message.header.requestType
  if !request.message.isRequest then
    none
  else if type = "notify" then
    some .notification
  else if type = "check_predecessor" then
    some .checkPredecessor
  else if type = "query" then
    some .query
  else if type = "find_successor" then
    some .findSuccessor
  else if type = "get_successor_list" then
    some .getSuccessorList
  else if type = "get_predecessor_and_succ_list" then
    some .getPredAndSuccList
  else if type = "get_self_and_successor_list" then
    some .getSelfAndSuccList
  else if type = "broadcast_filelist" then
    some .broadcastFilelist
  else if type = "get_file" then
    some .getFile
  else
    none

namespace MessageDispatcher

def init (sha256 : List UInt8 → String) (self : Peer) (disk : StaticStorage) :
    MessageDispatcher where
  node := { routingTable := RoutingTable.init self }
  storage := disk.restart sha256
  activeHandlers := .empty
  activeMessages _ := none
  next := 0
  taken := none

def routingTable (d : MessageDispatcher) : RoutingTable Peer :=
  d.node.routingTable

def withTable (d : MessageDispatcher) (rt : RoutingTable Peer) : MessageDispatcher :=
  { d with node := { d.node with routingTable := rt } }

def object? (d : MessageDispatcher) (a : Address) : Option MessageObject :=
  match d.activeMessages a.object, a.dependency with
  | some o, none => some o.toMessageObject
  | some o, some k => (o.find? k).map (·.toMessageObject)
  | none, _ => none

def isValid (d : MessageDispatcher) (h : HandlerObject HandlerFunction Address) : Bool :=
  (d.object? h.parent).isSome

def set (d : MessageDispatcher) (i : Nat) (o : ActiveObject) : MessageDispatcher :=
  { d with activeMessages := Function.update d.activeMessages i (some o) }

/--
`HandleNotification(request_object)`
-/
def push (d : MessageDispatcher) (requests : List RequestObject) : MessageDispatcher :=
  { d with node := { d.node with sendQueue := d.node.sendQueue ++ requests } }

/--
`HandleNotification(request_object, handler)`
-/
def register (d : MessageDispatcher) (requests : List RequestObject) (handler : HandlerFunction)
    (parent : Address) (isPersistent : Bool := false) : MessageDispatcher :=
  { d.push requests with
    activeHandlers := requests.foldl
      (fun handlers request =>
        handlers.insert ⟨request.message.header.transactionId, handler, parent, isPersistent⟩)
      d.activeHandlers }

/--
`HandleNotification()`
-/
def sweep (d : MessageDispatcher) : MessageDispatcher :=
  { d with activeHandlers := d.activeHandlers.eraseIf (!d.isValid ·) }

/--
`RequestDestruction` of an object in `active_messages_`
-/
def requestDestruction (d : MessageDispatcher) (i : Nat) (o : ActiveObject) (state : MessageState) :
    MessageDispatcher :=
  (d.set i (o.finish state)).sweep

/--
Put a dependency in front of the others and run it. `create_request` of these classes sends the
request, or fails without a call to `Notify`.
-/
def start (d : MessageDispatcher) (i : Nat) (o : ActiveObject) (type : MessageType) (h : Handled) :
    MessageDispatcher :=
  let dependency : DependencyObject :=
    { type := type, state := h.state, isDone := h.isDone, number := d.next, isEssential := true }
  let d := d.register h.notified .handleResponse ⟨i, some d.next⟩
  { d.set i { o with dependencies := dependency :: o.dependencies } with next := d.next + 1 }

end MessageDispatcher

namespace MessageDispatcher.Join

def createRequest (d : MessageDispatcher) (address port : String) (ids : Nat → String) :
    MessageDispatcher :=
  let i := d.next
  let target : Peer := ⟨"", address, port⟩
  let d := { d with next := d.next + 1 }
  d.start i { type := .join, target := target } .query
    (Query.createRequest d.routingTable target (ids d.next))

def handleQueryNotify (d : MessageDispatcher) (i : Nat) (o : ActiveObject) (self : Peer)
    (ids : Nat → String) : Except Crash MessageDispatcher := do
  let (h, _) ← Crash.ofOption
    (FindSuccessor.createRequest d.routingTable self.id (some o.target) (ids d.next))
  return d.start i { o with dependencies := [] } .findSuccessor h

def handleFindSuccessorNotify (d : MessageDispatcher) (i : Nat) (o : ActiveObject)
    (successor : Peer) (ids : Nat → String) : MessageDispatcher :=
  let d := d.withTable (d.routingTable.setSuccessor successor)
  d.start i { o with dependencies := [] } .getSuccessorList
    (GetSuccessorList.createRequest d.routingTable successor (ids d.next))

def handleGetSuccessorListNotify (d : MessageDispatcher) (i : Nat) (o : ActiveObject)
    (successorList : List Peer) : Except Crash MessageDispatcher := do
  let rt ← Crash.ofOption (d.routingTable.replaceAfterSuccessor successorList)
  return (d.withTable rt).requestDestruction i o .done

/--
A dependency in state DONE whose promise is not set would be waited for, which is not told apart
here from taking a value that is not there.
-/
def handleNotification (d : MessageDispatcher) (i : Nat) (o : ActiveObject) (ids : Nat → String) :
    Except Crash MessageDispatcher :=
  match o.dependencies with
  | [] => .error .missing
  | dependency :: _ =>
    if !dependency.isDone || dependency.state ≠ .done then
      .ok (d.requestDestruction i o .failed)
    else
      match dependency.type, dependency.promise with
      | .query, some (.peer (some self)) => handleQueryNotify d i o self ids
      | .findSuccessor, some (.peer (some successor)) =>
        .ok (handleFindSuccessorNotify d i o successor ids)
      | .getSuccessorList, some (.peers (some peers)) => handleGetSuccessorListNotify d i o peers
      | .query, _ | .findSuccessor, _ | .getSuccessorList, _ => .error .missing
      | _, _ => .ok (d.set i o)

end MessageDispatcher.Join

namespace MessageDispatcher.Stabilize

def resetFlag (d : MessageDispatcher) : MessageDispatcher :=
  { d with node := { d.node with stabilizeFlag := false } }

def fail (d : MessageDispatcher) (i : Nat) (o : ActiveObject) : MessageDispatcher :=
  (resetFlag d).requestDestruction i o .failed

def createRequest (d : MessageDispatcher) (ids : Nat → String) : MessageDispatcher :=
  let i := d.next
  let d := { d with next := d.next + 1, node := { d.node with stabilizeFlag := true } }
  let o : ActiveObject := { type := .stabilize }
  match d.routingTable.tryGetSuccessor with
  | none => fail d i o
  | some target =>
    d.start i o .getPredAndSuccList
      (GetPredAndSuccList.createRequest d.routingTable target (ids d.next))

def createNotification (d : MessageDispatcher) (i : Nat) (o : ActiveObject) (ids : Nat → String) :
    MessageDispatcher :=
  d.start i o .notification (Notification.createRequest d.routingTable (ids d.next))

def handleGetPredAndSuccListNotify (d : MessageDispatcher) (i : Nat) (o : ActiveObject)
    (predAndSuccList : List Peer) (ids : Nat → String) : MessageDispatcher :=
  match predAndSuccList with
  | [] => createNotification (resetFlag (d.withTable d.routingTable.popFront)) i o ids
  | successorsPredecessor :: rest =>
    match d.routingTable.tryGetSelf with
    | none => fail d i o
    | some self =>
      -- the predecessor stays in a list that consists of nothing else
      let succList := if predAndSuccList.length > 1 then rest else predAndSuccList
      match d.routingTable.tryGetSuccessor with
      | none => fail d i o
      | some successor =>
        let d := d.withTable (d.routingTable.replaceSuccessorList (successor :: succList))
        if util.between self.id successorsPredecessor.id successor.id then
          d.start i o .getSelfAndSuccList
            (GetSelfAndSuccList.createRequest d.routingTable successorsPredecessor (ids d.next))
        else
          resetFlag (createNotification d i o ids)

def handleGetSelfAndSuccListNotify (d : MessageDispatcher) (i : Nat) (o : ActiveObject)
    (selfAndSuccList : List Peer) (ids : Nat → String) : MessageDispatcher :=
  let d := d.withTable (d.routingTable.replaceSuccessorList selfAndSuccList)
  createNotification (resetFlag d) i o ids

def handleNotification (d : MessageDispatcher) (i : Nat) (o : ActiveObject) (ids : Nat → String) :
    Except Crash MessageDispatcher :=
  match o.dependencies with
  | [] => .error .missing
  | dependency :: _ =>
    if !dependency.isDone || dependency.state ≠ .done then
      .ok (fail d i o)
    else
      match dependency.type, dependency.promise with
      | .getPredAndSuccList, some (.peers (some peers)) =>
        .ok (handleGetPredAndSuccListNotify d i o peers ids)
      | .getSelfAndSuccList, some (.peers (some peers)) =>
        .ok (handleGetSelfAndSuccListNotify d i o peers ids)
      | .getPredAndSuccList, _ | .getSelfAndSuccList, _ => .error .missing
      | .notification, _ => .ok (d.requestDestruction i o .done)
      | _, _ => .ok (d.set i o)

end MessageDispatcher.Stabilize

namespace MessageDispatcher.BroadcastFilelist

def createRequest (d : MessageDispatcher) (ids : Nat → String) : MessageDispatcher :=
  let i := d.next
  let d := { d with next := d.next + 1 }
  let o : ActiveObject := { type := .broadcastFilelist }
  match d.routingTable.tryGetSelf with
  | none => d.requestDestruction i o .failed
  | some self =>
    match d.routingTable.tryGetSuccessor with
    | none => d.requestDestruction i o .failed
    | some target =>
      let message :=
        { Message.createRequest "broadcast_filelist" [self] (ids i) with files := d.storage.files }
      (d.push [⟨message, .peer target⟩]).requestDestruction i o .done

def requestFile (i : Nat) (target : Peer) (ids : Nat → String)
    (s : MessageDispatcher × List DependencyObject) (file : FileInfo) :
    MessageDispatcher × List DependencyObject :=
  let (d, dependencies) := s
  if d.storage.existsInternal file.fileName then
    (d, dependencies)
  else
    let k := d.next
    let handled := (GetFile.ofFileInfo target file).createRequest d.storage (ids k)
    let dependency : DependencyObject :=
      { type := .getFile, getFile := some handled.getFile, state := handled.getFile.state
        isDone := handled.getFile.isDone, number := k, isEssential := false }
    let d := { d with storage := handled.storage, next := k + 1 }
    (d.register handled.notified.toList .handleResponse ⟨i, some k⟩ true,
      dependencies ++ [dependency])

def conclude (d : MessageDispatcher) (i : Nat) (o : ActiveObject) (state : MessageState) :
    MessageDispatcher :=
  if o.dependencies = [] then
    d.requestDestruction i o state
  else
    d.set i { o with state := state }

def handleRequest (d : MessageDispatcher) (request : RequestObject) (ids : Nat → String) :
    MessageDispatcher :=
  let i := d.next
  let d := { d with next := d.next + 1 }
  let o : ActiveObject := { type := .broadcastFilelist, request := some request }
  match d.routingTable.tryGetSelf with
  | none => d.requestDestruction i o .failed
  | some self =>
    if request.message.peers.any fun peer => peer.ip == self.ip && peer.port == self.port then
      d.requestDestruction i o .done
    else
      let peers := request.message.peers ++ [self]
      let (d, dependencies) :=
        request.message.files.foldl (requestFile i (peers.headD self) ids) (d, [])
      let o := { o with dependencies := dependencies }
      match d.routingTable.tryGetSuccessor with
      | none => conclude d i o .failed
      | some target =>
        let message :=
          { Message.createRequest "broadcast_filelist" peers (ids i) with
            files := request.message.files }
        conclude (d.push [⟨message, .peer target⟩]) i o .done

def handleNotification (d : MessageDispatcher) (i : Nat) (o : ActiveObject) : MessageDispatcher :=
  if o.flag && o.dependencies.all (·.isDone) then
    d.requestDestruction i o .done
  else
    d.set i o

end MessageDispatcher.BroadcastFilelist

namespace MessageDispatcher.CheckPredecessor

def createRequest (d : MessageDispatcher) (ids : Nat → String) : MessageDispatcher :=
  let i := d.next
  let d := { d with next := d.next + 1 }
  let o : ActiveObject := { type := .checkPredecessor }
  match d.routingTable.tryGetPredecessor with
  | none => d.requestDestruction i o .failed
  | some target =>
    let request := ⟨Message.createRequest "check_predecessor" [] (ids i), .peer target⟩
    let d := d.register [request] .handleResponse ⟨i, none⟩
    { d.set i o with node := { d.node with checkPredecessorFlag := true } }

end MessageDispatcher.CheckPredecessor

namespace MessageDispatcher

def handleNotification (d : MessageDispatcher) (i : Nat) (o : ActiveObject) (ids : Nat → String) :
    Except Crash MessageDispatcher :=
  match o.type with
  | .join => Join.handleNotification d i o ids
  | .stabilize => Stabilize.handleNotification d i o ids
  | .broadcastFilelist => .ok (BroadcastFilelist.handleNotification d i o)
  | _ => .ok (d.set i o)

def handled (d : MessageDispatcher) (i : Nat) (o : ActiveObject) (h : Handled) :
    MessageDispatcher :=
  let d := d.withTable h.routingTable
  let o := { o with state := h.state, isDone := h.isDone }
  if h.isDone then
    ((d.push h.notified).set i o).sweep
  else
    (d.register h.notified .handleForwardedResponse ⟨i, none⟩).set i o

/--
`handle_request` of the object that is made for a request. Two classes set their promise there.
-/
def handleRequest (sha256 : String → String) (d : MessageDispatcher) (type : MessageType)
    (request : RequestObject) (ids : Nat → String) : Except Crash MessageDispatcher :=
  let i := d.next
  let rt := d.routingTable
  let d' := { d with next := i + 1 }
  let o : ActiveObject := { type := type, request := some request }
  match type with
  | .notification => .ok (d'.handled i o (Notification.handleRequest rt request (ids i)))
  | .checkPredecessor => .ok (d'.handled i o (CheckPredecessor.handleRequest rt request (ids i)))
  | .query => do
    let h ← Crash.ofOption (Query.handleRequest sha256 rt request (ids i))
    return d'.handled i o h
  | .findSuccessor => do
    let h ← Crash.ofOption (FindSuccessor.handleRequest rt request (ids i))
    return d'.handled i o h
  | .getSuccessorList => .ok (d'.handled i o (GetSuccessorList.handleRequest rt request (ids i)))
  | .getPredAndSuccList =>
    .ok (d'.handled i { o with promise := some (.peers none) }
      (GetPredAndSuccList.handleRequest rt request (ids i)))
  | .getSelfAndSuccList =>
    .ok (d'.handled i { o with promise := some (.peers none) }
      (GetSelfAndSuccList.handleRequest rt request (ids i)))
  | .broadcastFilelist => .ok (BroadcastFilelist.handleRequest d request ids)
  | .getFile => do
    let h ← Crash.ofOption ((GetFile.ofRequest request).handleRequest d.storage (ids i))
    let d' := { d'.push h.notified.toList with storage := h.storage }
    let d' := d'.set i { o with toMessageObject := o.toMessageObject.withGetFile h.getFile }
    return if h.getFile.isDone then d'.sweep else d'
  | _ => .ok d

/--
Call a handler, if its object is still alive. A dependency notifies the object that it belongs to.
-/
def handleResponse (sha256 : List UInt8 → String) (d : MessageDispatcher)
    (h : HandlerObject HandlerFunction Address) (response : RequestObject) (ids : Nat → String) :
    Except Crash MessageDispatcher :=
  let i := h.parent.object
  match d.activeMessages i, h.parent.dependency with
  | none, _ => .ok d
  | some o, none => do
    let r ← o.toMessageObject.call sha256 d.node d.storage h.handler response (ids i)
    let d := { d with node := r.node, storage := r.storage }.set i
      { o with toMessageObject := r.object }
    return if r.notifies then d.sweep else d
  | some o, some k =>
    match o.find? k with
    | none => .ok d
    | some dependency => do
      let r ← dependency.toMessageObject.call sha256 d.node d.storage h.handler response (ids k)
      let d := { d with node := r.node, storage := r.storage }
      let o := o.replace k r.object
      if r.notifies then handleNotification d i o ids else return d.set i o

/--
The first part of `dispatch`: the object that is made for a request, or the handler that is taken
out of the registry for a response.
-/
def select (d : MessageDispatcher) (message : RequestObject) :
    MessageDispatcher × Option Invocation :=
  if message.message.isRequest then
    (d, (MessageFactory.createFromRequest message).map (.request · message))
  else
    let result := d.activeHandlers.getAndEraseIf message.message.header.correlationalId
      (!·.isPersistent)
    ({ d with activeHandlers := result.2 }, result.1.map (.response · message))

/--
The second part. `sha256` is the hex digest of strings and of bytes.
-/
def invoke (sha256 : String → String) (sha256' : List UInt8 → String) (d : MessageDispatcher)
    (invocation : Invocation) (ids : Nat → String) : Except Crash MessageDispatcher :=
  match invocation with
  | .request type request => d.handleRequest sha256 type request ids
  | .response h response => d.handleResponse sha256' h response ids

/--
The body of the loop of `run_internal`. The value that `ParseFromArray` returns is not looked at.
-/
def runInternal (sha256 : String → String) (sha256' : List UInt8 → String)
    (parseFromArray : List UInt8 → proto.Request × Bool) (d : MessageDispatcher) (buf : List UInt8)
    (session : Session) (ids : Nat → String) : Except Crash MessageDispatcher := do
  let message ← Crash.ofOption (ProtobufMessageConverter.messageFromSerialized parseFromArray buf)
  match d.select ⟨message, .session session⟩ with
  | (d, none) => return d
  | (d, some invocation) => d.invoke sha256 sha256' invocation ids

/--
The chord thread takes what is done out of `active_messages_`. The destructor of an object is
followed by the ones of its dependencies.
-/
def destroy (d : MessageDispatcher) (i : Nat) (o : ActiveObject) :
    Except Crash MessageDispatcher := do
  let storage ← o.toMessageObject.destroy d.storage
  let storage ← o.dependencies.foldlM (fun s dependency => dependency.toMessageObject.destroy s)
    storage
  return { d with storage := storage, activeMessages := Function.update d.activeMessages i none }

/--
The steps of the threads. The dispatcher takes a message and handles it after other threads had
their turn, and `ids` are the transaction ids of the messages of each object.
-/
inductive Event where
  | join (address port : String) (ids : Nat → String)
  | stabilize (ids : Nat → String)
  | checkPredecessor (ids : Nat → String)
  | broadcastFilelist (ids : Nat → String)
  | receive (message : RequestObject)
  | invoke (ids : Nat → String)
  | checkState (i : Nat) (expired : Option Nat → Bool)
  | destroy (i : Nat)

def step (sha256 : String → String) (sha256' : List UInt8 → String) (d : MessageDispatcher) :
    Event → Option (Except Crash MessageDispatcher)
  | .join address port ids => some (.ok (Join.createRequest d address port ids))
  | .stabilize ids =>
    if d.node.stabilizeFlag then none else some (.ok (Stabilize.createRequest d ids))
  | .checkPredecessor ids =>
    if d.node.checkPredecessorFlag then none else some (.ok (CheckPredecessor.createRequest d ids))
  | .broadcastFilelist ids => some (.ok (BroadcastFilelist.createRequest d ids))
  | .receive message =>
    match d.taken with
    | some _ => none
    | none => some (.ok { (d.select message).1 with taken := (d.select message).2 })
  | .invoke ids =>
    d.taken.map fun invocation => { d with taken := none }.invoke sha256 sha256' invocation ids
  | .checkState i expired => (d.activeMessages i).map fun o => do
    let (node, o) ← o.checkState d.node expired
    return { d with node := node }.set i o
  | .destroy i => (d.activeMessages i).bind fun o => if o.isDone then some (d.destroy i o) else none

def next? (sha256 : String → String) (sha256' : List UInt8 → String) (d : MessageDispatcher)
    (e : Event) : Option MessageDispatcher :=
  (d.step sha256 sha256' e).bind Except.toOption

end MessageDispatcher

end Peerpaste
