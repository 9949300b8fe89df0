import Peerpaste.Messages.Exchange
import Peerpaste.RoutingTable.Invariant

/-!
This module contains the `Stabilize` message: it asks the successor for its predecessor and
successor list, possibly asks that predecessor for its own list, and notifies whoever is the
successor then.
-/

namespace Peerpaste

structure Stabilize where
  dependencies : List Dependency := []
  state : MessageState := .valid
  isDone : Bool := false
  deriving DecidableEq, Repr

namespace Stabilize

/--
Put a dependency in front and run it. No `create_request` of the three dependencies finishes at
once, so none calls back into the object that starts it.
-/
def start (node : Node) (s : Stabilize) (type : MessageType) (h : Handled) : Node × Stabilize :=
  ({ node with sendQueue := node.sendQueue ++ h.notified },
    { s with dependencies := h.toDependency type :: s.dependencies })

def fail (node : Node) (s : Stabilize) : Node × Stabilize :=
  ({ node with stabilizeFlag := false }, { s with state := .failed, isDone := true })

def createRequest (node : Node) (transactionId : String) : Node × Stabilize :=
  match node.routingTable.tryGetSuccessor with
  | none => fail node {}
  | some target =>
    start node {} .getPredAndSuccList
      (GetPredAndSuccList.createRequest node.routingTable target transactionId)

def createNotification (node : Node) (s : Stabilize) (transactionId : String) : Node × Stabilize :=
  start node s .notification (Notification.createRequest node.routingTable transactionId)

def handleGetPredAndSuccListNotify (node : Node) (s : Stabilize) (predAndSuccList : List Peer)
    (transactionId : String) : Node × Stabilize :=
  match predAndSuccList with
  | [] =>
    let node := { node with routingTable := node.routingTable.popFront, stabilizeFlag := false }
    createNotification node s transactionId
  | successorsPredecessor :: rest =>
    match node.routingTable.tryGetSelf with
    | none => fail node s
    | some self =>
      -- the predecessor stays in a list that consists of nothing else
      let succList := if predAndSuccList.length > 1 then rest else predAndSuccList
      match node.routingTable.tryGetSuccessor with
      | none => fail node s
      | some successor =>
        let rt := node.routingTable.replaceSuccessorList (successor :: succList)
        let node := { node with routingTable := rt }
        if util.between self.id successorsPredecessor.id successor.id then
          start node s .getSelfAndSuccList
            (GetSelfAndSuccList.createRequest rt successorsPredecessor transactionId)
        else
          let (node, s) := createNotification node s transactionId
          ({ node with stabilizeFlag := false }, s)

def handleGetSelfAndSuccListNotify (node : Node) (s : Stabilize) (selfAndSuccList : List Peer)
    (transactionId : String) : Node × Stabilize :=
  let rt := node.routingTable.replaceSuccessorList selfAndSuccList
  createNotification { node with routingTable := rt, stabilizeFlag := false } s transactionId

def handleNotificationNotify (node : Node) (s : Stabilize) : Node × Stabilize :=
  (node, { s with state := .done, isDone := true })

def handleNotification (node : Node) (s : Stabilize) (promise : List Peer)
    (transactionId : String) : Node × Stabilize :=
  match s.dependencies with
  | [] => fail node s
  | d :: _ =>
    if !d.isDone || d.state ≠ .done then
      fail node s
    else
      match d.type with
      | .getPredAndSuccList => handleGetPredAndSuccListNotify node s promise transactionId
      | .getSelfAndSuccList => handleGetSelfAndSuccListNotify node s promise transactionId
      | .notification => handleNotificationNotify node s
      | _ => (node, s)

def handleResponse (rt : RoutingTable Peer) (type : MessageType) (response : RequestObject) :
    Handled × List Peer :=
  match type with
  | .getPredAndSuccList => GetPredAndSuccList.handleResponse rt response
  | .getSelfAndSuccList => GetSelfAndSuccList.handleResponse rt response
  | _ => (Notification.handleResponse rt, [])

/--
A response to the request of the newest dependency. Its handler is taken out of the registry by the
first response, so that later ones find none. Nothing here looks at whether the object is done.
-/
def receive (node : Node) (s : Stabilize) (response : RequestObject) (transactionId : String) :
    Node × Stabilize :=
  match s.dependencies with
  | [] => (node, s)
  | d :: ds =>
    if d.isOutstanding then
      let (h, promise) := handleResponse node.routingTable d.type response
      let d := { d with state := h.state, isDone := h.isDone }
      handleNotification node { s with dependencies := d :: ds } promise transactionId
    else
      (node, s)

def answer (rt : RoutingTable Peer) (d : Dependency) (response : RequestObject) : Dependency :=
  let h := (handleResponse rt d.type response).1
  { d with state := h.state, isDone := h.isDone }

section Receive

variable {node : Node} {s : Stabilize} {r response : RequestObject} {transactionId : String}
  {ds : List Dependency}

theorem receive_eq {d : Dependency} (hs : s.dependencies = d :: ds) (hd : d.isOutstanding) :
    s.receive node response transactionId
      =
    handleNotification node { s with dependencies := answer node.routingTable d response :: ds }
      (handleResponse node.routingTable d.type response).2 transactionId := by
  simp only [receive, hs, hd, ↓reduceIte, answer]

theorem receive_getPredAndSuccList (hs : s.dependencies = .waiting .getPredAndSuccList r :: ds)
    (hresponse : response.message.isRequest = false) :
    s.receive node response transactionId
      =
    handleGetPredAndSuccListNotify node
      { s with dependencies := .answered .getPredAndSuccList r :: ds } response.message.peers
      transactionId := by
  simp [receive, hs, Dependency.waiting, Dependency.isOutstanding, Dependency.answered,
    handleResponse, GetPredAndSuccList.handleResponse, hresponse, handleNotification]

theorem receive_getSelfAndSuccList (hs : s.dependencies = .waiting .getSelfAndSuccList r :: ds)
    (hresponse : response.message.isRequest = false) :
    s.receive node response transactionId
      =
    handleGetSelfAndSuccListNotify node
      { s with dependencies := .answered .getSelfAndSuccList r :: ds } response.message.peers
      transactionId := by
  simp [receive, hs, Dependency.waiting, Dependency.isOutstanding, Dependency.answered,
    handleResponse, GetSelfAndSuccList.handleResponse, hresponse, handleNotification]

theorem receive_notification (hs : s.dependencies = .waiting .notification r :: ds) :
    s.receive node response transactionId
      =
    (node, { s with
      dependencies := .answered .notification r :: ds, state := .done, isDone := true }) := by
  simp [receive, hs, Dependency.waiting, Dependency.isOutstanding, Dependency.answered,
    handleResponse, Notification.handleResponse, handleNotification, handleNotificationNotify]

end Receive

section Notify

variable {node : Node} {s : Stabilize} {self successor predecessor : Peer} {transactionId : String}
  {succList : List Peer}

theorem createRequest_eq (hsucc : node.routingTable.tryGetSuccessor = some successor) :
    let request : RequestObject :=
      ⟨Message.createRequest "get_predecessor_and_succ_list" [] transactionId, .peer successor⟩
    createRequest node transactionId
      =
    ({ node with sendQueue := node.sendQueue ++ [request] },
      { dependencies := [.waiting .getPredAndSuccList request] }) := by
  simp [createRequest, hsucc, start, GetPredAndSuccList.createRequest, Handled.toDependency,
    Dependency.waiting]

theorem createNotification_eq (hself : node.routingTable.self = some self) (hid : self.id ≠ "")
    (hsucc : node.routingTable.tryGetSuccessor = some successor) :
    let request : RequestObject :=
      ⟨Message.createRequest "notify" [self] transactionId, .peer successor⟩
    createNotification node s transactionId
      =
    ({ node with sendQueue := node.sendQueue ++ [request] },
      { s with dependencies := .waiting .notification request :: s.dependencies }) := by
  simp [createNotification, Notification.createRequest, RoutingTable.tryGetSelf, hself, hid, hsucc,
    start, Handled.toDependency, Dependency.waiting]

theorem createNotification_silent (hself : node.routingTable.self = some self)
    (hid : self.id = "") :
    createNotification node s transactionId
      =
    (node, { s with dependencies := ⟨.notification, none, .failed, false⟩ :: s.dependencies }) := by
  simp [createNotification, Notification.createRequest, RoutingTable.tryGetSelf, hself, hid, start,
    Handled.toDependency]

theorem createNotification_replaceSuccessorList (node : Node) (s : Stabilize)
    (transactionId : String) (hself : node.routingTable.self = some self) (hid : self.id ≠ "")
    (successor : Peer)
    (succList : List Peer) :
    let rt := node.routingTable.replaceSuccessorList (successor :: succList)
    let request : RequestObject :=
      ⟨Message.createRequest "notify" [self] transactionId, .peer successor⟩
    createNotification { node with routingTable := rt } s transactionId
      =
    ({ node with routingTable := rt, sendQueue := node.sendQueue ++ [request] },
      { s with dependencies := .waiting .notification request :: s.dependencies }) := by
  apply createNotification_eq
  . exact hself
  . exact hid
  . exact RoutingTable.head?_resize_cons successor succList

theorem handleGetPredAndSuccListNotify_keep (hself : node.routingTable.self = some self)
    (hid : self.id ≠ "") (hsucc : node.routingTable.tryGetSuccessor = some successor)
    (hlist : succList ≠ [])
    (hbetween : ¬ Clockwise.Between self.id predecessor.id successor.id) :
    let request : RequestObject :=
      ⟨Message.createRequest "notify" [self] transactionId, .peer successor⟩
    handleGetPredAndSuccListNotify node s (predecessor :: succList) transactionId
      =
    ({ node with
        routingTable := node.routingTable.replaceSuccessorList (successor :: succList)
        stabilizeFlag := false
        sendQueue := node.sendQueue ++ [request] },
      { s with dependencies := .waiting .notification request :: s.dependencies }) := by
  have hlength : (predecessor :: succList).length > 1 := by
    have := List.length_pos_iff.mpr hlist
    simp only [List.length_cons]
    omega
  rw [← util.between_iff] at hbetween
  have hnotify := createNotification_replaceSuccessorList node s transactionId hself hid
    successor succList
  simp only [handleGetPredAndSuccListNotify, RoutingTable.tryGetSelf, hself, hlength, ↓reduceIte,
    hsucc, hbetween, Bool.false_eq_true, hnotify]

theorem handleGetPredAndSuccListNotify_silent (hself : node.routingTable.self = some self)
    (hid : self.id = "") (hsucc : node.routingTable.tryGetSuccessor = some successor)
    (hlist : succList ≠ [])
    (hbetween : ¬ Clockwise.Between self.id predecessor.id successor.id) :
    handleGetPredAndSuccListNotify node s (predecessor :: succList) transactionId
      =
    ({ node with
        routingTable := node.routingTable.replaceSuccessorList (successor :: succList)
        stabilizeFlag := false },
      { s with dependencies := ⟨.notification, none, .failed, false⟩ :: s.dependencies }) := by
  have hlength : (predecessor :: succList).length > 1 := by
    have := List.length_pos_iff.mpr hlist
    simp only [List.length_cons]
    omega
  rw [← util.between_iff] at hbetween
  let rt := node.routingTable.replaceSuccessorList (successor :: succList)
  have hnotify : createNotification { node with routingTable := rt } s transactionId =
      ({ node with routingTable := rt },
        { s with dependencies := ⟨.notification, none, .failed, false⟩ :: s.dependencies }) :=
    createNotification_silent hself hid
  simp only [rt] at hnotify
  simp only [handleGetPredAndSuccListNotify, RoutingTable.tryGetSelf, hself, hlength, ↓reduceIte,
    hsucc, hbetween, Bool.false_eq_true, hnotify]

theorem handleGetPredAndSuccListNotify_adopt (hself : node.routingTable.self = some self)
    (hsucc : node.routingTable.tryGetSuccessor = some successor) (hlist : succList ≠ [])
    (hbetween : Clockwise.Between self.id predecessor.id successor.id) :
    let request : RequestObject :=
      ⟨Message.createRequest "get_self_and_successor_list" [] transactionId, .peer predecessor⟩
    handleGetPredAndSuccListNotify node s (predecessor :: succList) transactionId
      =
    ({ node with
        routingTable := node.routingTable.replaceSuccessorList (successor :: succList)
        sendQueue := node.sendQueue ++ [request] },
      { s with dependencies := .waiting .getSelfAndSuccList request :: s.dependencies }) := by
  have hlength : (predecessor :: succList).length > 1 := by
    have := List.length_pos_iff.mpr hlist
    simp only [List.length_cons]
    omega
  rw [← util.between_iff] at hbetween
  simp only [handleGetPredAndSuccListNotify, RoutingTable.tryGetSelf, hself, hlength, ↓reduceIte,
    hsucc, hbetween, start, GetSelfAndSuccList.createRequest, Handled.toDependency,
    Dependency.waiting, List.head?_cons]

theorem handleGetPredAndSuccListNotify_pop (hself : node.routingTable.self = some self)
    (hid : self.id ≠ "") {next : Peer} {rest : List Peer}
    (hlist : node.routingTable.successorList = successor :: next :: rest) :
    let request : RequestObject :=
      ⟨Message.createRequest "notify" [self] transactionId, .peer next⟩
    handleGetPredAndSuccListNotify node s [] transactionId
      =
    ({ node with
        routingTable := { node.routingTable with successorList := next :: rest }
        stabilizeFlag := false
        sendQueue := node.sendQueue ++ [request] },
      { s with dependencies := .waiting .notification request :: s.dependencies }) := by
  have hpop : node.routingTable.popFront
      = { node.routingTable with successorList := next :: rest } := by
    simp [RoutingTable.popFront, hlist]
  simp only [handleGetPredAndSuccListNotify, hpop]
  apply createNotification_eq
  . exact hself
  . exact hid
  . rfl

theorem handleGetSelfAndSuccListNotify_eq (hself : node.routingTable.self = some self)
    (hid : self.id ≠ "") :
    let request : RequestObject :=
      ⟨Message.createRequest "notify" [self] transactionId, .peer successor⟩
    handleGetSelfAndSuccListNotify node s (successor :: succList) transactionId
      =
    ({ node with
        routingTable := node.routingTable.replaceSuccessorList (successor :: succList)
        stabilizeFlag := false
        sendQueue := node.sendQueue ++ [request] },
      { s with dependencies := .waiting .notification request :: s.dependencies }) := by
  have hnotify := createNotification_replaceSuccessorList { node with stabilizeFlag := false } s
    transactionId hself hid successor succList
  simp only [handleGetSelfAndSuccListNotify, hnotify]

end Notify

def handleFailed (node : Node) (s : Stabilize) : Node × Stabilize :=
  let node :=
    if s.dependencies.length = 1 then
      { node with routingTable := node.routingTable.popFront }
    else
      node
  ({ node with stabilizeFlag := false }, { s with state := .failed })

def timeOut (node : Node) (s : Stabilize) : Node × Stabilize :=
  if s.isDone then
    (node, s)
  else
    handleFailed node { s with state := .timedOut, isDone := true }

def awaits (s : Stabilize) (type : MessageType) : Bool :=
  match s.dependencies with
  | [] => false
  | d :: _ => d.type == type && d.isOutstanding

def unanswered (s : Stabilize) : Option Peer :=
  match s.dependencies with
  | [⟨.getPredAndSuccList, some ⟨_, .peer target⟩, _, false⟩] => some target
  | _ => none

section Table

variable {node : Node} {s : Stabilize} {target : Peer} {transactionId : String}

@[simp]
theorem createNotification_routingTable :
    (createNotification node s transactionId).1.routingTable = node.routingTable := rfl

theorem createRequest_routingTable :
    (createRequest node transactionId).1.routingTable = node.routingTable := by
  unfold createRequest
  split
  . rfl
  . rfl

theorem handleGetPredAndSuccListNotify_grows (peer : Peer) (peers : List Peer) :
    node.routingTable.Grows
      (handleGetPredAndSuccListNotify node s (peer :: peers) transactionId).1.routingTable := by
  simp only [handleGetPredAndSuccListNotify]
  split
  . exact .refl _
  split
  . exact .refl _
  split
  . exact .replaceSuccessorList _ _
  . exact .replaceSuccessorList _ _

theorem handleNotification_routingTable (node : Node) (s : Stabilize) (d : Dependency)
    (ds : List Dependency) (promise : List Peer) (transactionId : String) :
    let result := handleNotification node { s with dependencies := d :: ds } promise transactionId
    node.routingTable.Grows result.1.routingTable
      ∨
    (d.type = .getPredAndSuccList ∧ promise = []
      ∧ result.1.routingTable = node.routingTable.popFront) := by
  simp only [handleNotification]
  split
  . exact Or.inl (.refl _)
  split
  . next htype =>
    cases promise with
    | nil => exact Or.inr ⟨htype, rfl, rfl⟩
    | cons peer peers => exact Or.inl (handleGetPredAndSuccListNotify_grows peer peers)
  . exact Or.inl (.replaceSuccessorList _ _)
  . exact Or.inl (.refl _)
  . exact Or.inl (.refl _)

theorem receive_routingTable (node : Node) (s : Stabilize) {response : RequestObject}
    (transactionId : String) (hresponse : response.message.isRequest = false) :
    node.routingTable.Grows (s.receive node response transactionId).1.routingTable
      ∨
    (s.awaits .getPredAndSuccList ∧ response.message.peers = []
      ∧ (s.receive node response transactionId).1.routingTable = node.routingTable.popFront) := by
  cases hd : s.dependencies with
  | nil =>
    left
    simp only [receive, hd]
    exact .refl _
  | cons d ds =>
    cases hwaits : d.isOutstanding with
    | false =>
      left
      simp only [receive, hd, hwaits, Bool.false_eq_true, ↓reduceIte]
      exact .refl _
    | true =>
      rw [receive_eq hd hwaits]
      rcases handleNotification_routingTable node s (answer node.routingTable d response) ds
          (handleResponse node.routingTable d.type response).2 transactionId with
        h | ⟨htype, hpromise, htable⟩
      . exact Or.inl h
      . right
        have htype : d.type = .getPredAndSuccList := htype
        refine ⟨?_, ?_, htable⟩
        . simp [awaits, hd, htype, hwaits]
        . simpa [htype, handleResponse, GetPredAndSuccList.handleResponse, hresponse] using hpromise

theorem receive_empty (node : Node) (transactionId : String) {response : RequestObject}
    (hresponse : response.message.isRequest = false) (hawaits : s.awaits .getPredAndSuccList)
    (hpeers : response.message.peers = []) :
    (s.receive node response transactionId).1.routingTable = node.routingTable.popFront := by
  cases hd : s.dependencies with
  | nil => simp [awaits, hd] at hawaits
  | cons d ds =>
    simp only [awaits, hd, Bool.and_eq_true, beq_iff_eq] at hawaits
    rw [receive_eq hd hawaits.2]
    simp [handleNotification, answer, hawaits.1, handleResponse, GetPredAndSuccList.handleResponse,
      hresponse, hpeers, handleGetPredAndSuccListNotify]

theorem timeOut_routingTable :
    (s.timeOut node).1.routingTable
      =
    if s.isDone = false ∧ s.dependencies.length = 1 then
      node.routingTable.popFront
    else
      node.routingTable := by
  unfold timeOut handleFailed
  cases s.isDone with
  | true => simp
  | false =>
    simp only [Bool.false_eq_true, ↓reduceIte, true_and]
    split
    . rfl
    . rfl

theorem timeOut_isDone : (s.timeOut node).2.isDone = true := by
  unfold timeOut handleFailed
  split
  . next h => exact h
  . rfl

end Table

section Progress

variable {node : Node} {s : Stabilize} {target : Peer} {transactionId : String}

structure Advances (s s' : Stabilize) : Prop where
  isDone : s.isDone → s'.isDone
  length_le : s.dependencies.length ≤ s'.dependencies.length

theorem Advances.refl (s : Stabilize) : s.Advances s :=
  ⟨id, Nat.le_refl _⟩

theorem Advances.start (node : Node) (s : Stabilize) (type : MessageType) (h : Handled) :
    s.Advances (start node s type h).2 := by
  refine ⟨id, ?_⟩
  simp only [Stabilize.start, List.length_cons]
  omega

theorem Advances.fail : s.Advances (fail node s).2 :=
  ⟨fun _ => rfl, Nat.le_refl _⟩

theorem handleGetPredAndSuccListNotify_advances (promise : List Peer) :
    let s' := (handleGetPredAndSuccListNotify node s promise transactionId).2
    s.Advances s' ∧ (s'.isDone ∨ s'.dependencies.length = s.dependencies.length + 1) := by
  cases promise with
  | nil => exact ⟨.start _ _ _ _, Or.inr rfl⟩
  | cons peer peers =>
    simp only [handleGetPredAndSuccListNotify]
    split
    . exact ⟨.fail, Or.inl rfl⟩
    split
    . exact ⟨.fail, Or.inl rfl⟩
    split
    . exact ⟨.start _ _ _ _, Or.inr rfl⟩
    . exact ⟨.start node _ _ _, Or.inr rfl⟩

theorem handleNotification_advances (node : Node) (s : Stabilize) (promise : List Peer)
    (transactionId : String) : s.Advances (handleNotification node s promise transactionId).2 := by
  unfold handleNotification
  split
  . exact .fail
  split
  . exact .fail
  split
  . exact (handleGetPredAndSuccListNotify_advances promise).1
  . exact .start _ _ _ _
  . exact ⟨fun _ => rfl, Nat.le_refl _⟩
  . exact .refl _

theorem receive_advances (node : Node) (s : Stabilize) (response : RequestObject)
    (transactionId : String) : s.Advances (s.receive node response transactionId).2 := by
  cases hd : s.dependencies with
  | nil =>
    simp only [receive, hd]
    exact .refl _
  | cons d ds =>
    cases hwaits : d.isOutstanding with
    | false =>
      simp only [receive, hd, hwaits, Bool.false_eq_true, ↓reduceIte]
      exact .refl _
    | true =>
      rw [receive_eq hd hwaits]
      have h := handleNotification_advances node
        { s with dependencies := answer node.routingTable d response :: ds }
        (handleResponse node.routingTable d.type response).2 transactionId
      refine ⟨h.isDone, ?_⟩
      simpa [hd] using h.length_le

theorem unanswered_eq_some (h : s.unanswered = some target) :
    ∃ r state, s.dependencies = [⟨.getPredAndSuccList, some r, state, false⟩]
      ∧ r.connection = .peer target := by
  unfold unanswered at h
  split at h
  . next message target' state heq =>
    cases h
    exact ⟨⟨message, .peer target⟩, state, heq, rfl⟩
  . cases h

theorem receive_unanswered (node : Node) (transactionId : String) (h : s.unanswered = some target)
    {response : RequestObject} (hresponse : response.message.isRequest = false) :
    let s' := (s.receive node response transactionId).2
    s'.isDone ∨ 2 ≤ s'.dependencies.length := by
  rcases unanswered_eq_some h with ⟨r, state, hs, _⟩
  rw [receive_eq hs rfl]
  simp only [handleNotification, answer, handleResponse, GetPredAndSuccList.handleResponse,
    hresponse, Bool.false_eq_true, ↓reduceIte, Bool.not_true, ne_eq, not_true_eq_false,
    decide_false, Bool.or_self]
  rcases (handleGetPredAndSuccListNotify_advances _).2 with hdone | hlength
  . exact Or.inl hdone
  . right
    rw [hlength]
    rfl

theorem createRequest_unanswered (h : (createRequest node transactionId).2.isDone = false) :
    ∃ target, node.routingTable.tryGetSuccessor = some target
      ∧ (createRequest node transactionId).2.unanswered = some target := by
  cases hsucc : node.routingTable.tryGetSuccessor with
  | none => simp [createRequest, hsucc, Stabilize.fail] at h
  | some target =>
    rw [createRequest_eq hsucc]
    exact ⟨target, rfl, rfl⟩

end Progress

end Stabilize

end Peerpaste
