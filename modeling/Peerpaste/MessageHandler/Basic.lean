import Peerpaste.Messages.Factory
import Peerpaste.Messages.Join
import Peerpaste.Messages.Stabilize

/-!
This module contains a running node: its routing table and flags, the message objects in
`active_messages_` and the steps of the chord loop and of the dispatcher, each handler call being
one step. Objects that write neither the table nor the flags are left out.
-/

namespace Peerpaste

inductive ActiveMessage where
  | stabilize (s : Stabilize)
  | join (j : Join)
  | checkPredecessor (c : CheckPredecessor)
  deriving DecidableEq, Repr

def ActiveMessage.isDone : ActiveMessage → Bool
  | .stabilize s => s.isDone
  | .join j => j.isDone
  | .checkPredecessor c => c.isDone

structure MessageHandler where
  node : Node
  active : Nat → Option ActiveMessage
  next : Nat

namespace MessageHandler

inductive Event where
  | stabilize (transactionId : String)
  | checkPredecessor (transactionId : String)
  | join (address port transactionId : String)
  | response (i : Nat) (response : RequestObject) (transactionId : String)
  | timeOut (i : Nat)
  | clean (i : Nat)
  | request (request : RequestObject) (transactionId : String)
  deriving DecidableEq, Repr

def init (self : Peer) : MessageHandler where
  node := { routingTable := RoutingTable.init self }
  active _ := none
  next := 0

def routingTable (h : MessageHandler) : RoutingTable Peer :=
  h.node.routingTable

def pushBack (h : MessageHandler) (node : Node) (m : ActiveMessage) : MessageHandler where
  node := node
  active := Function.update h.active h.next (some m)
  next := h.next + 1

def set (h : MessageHandler) (i : Nat) (node : Node) (m : ActiveMessage) : MessageHandler :=
  { h with node := node, active := Function.update h.active i (some m) }

/--
A response for an active message. The registry finds the message by the id of its request, as long
as the message lives.
-/
def handleResponse (h : MessageHandler) (i : Nat) (response : RequestObject)
    (transactionId : String) : Option MessageHandler :=
  match h.active i with
  | none => none
  | some (.stabilize s) =>
    let result := s.receive h.node response transactionId
    some (h.set i result.1 (.stabilize result.2))
  | some (.join j) => do
    let (node, j) ← j.receive h.node response transactionId
    return h.set i node (.join j)
  | some (.checkPredecessor c) =>
    let result := c.receive h.node response
    some (h.set i result.1 (.checkPredecessor result.2))

def timeOut (h : MessageHandler) (i : Nat) : Option MessageHandler :=
  match h.active i with
  | none => none
  | some (.stabilize s) =>
    let result := s.timeOut h.node
    some (h.set i result.1 (.stabilize result.2))
  | some (.join j) =>
    let result := j.timeOut h.node
    some (h.set i result.1 (.join result.2))
  | some (.checkPredecessor c) =>
    let result := c.timeOut h.node
    some (h.set i result.1 (.checkPredecessor result.2))

def handleRequest (h : MessageHandler) (sha256 : String → String) (request : RequestObject)
    (transactionId : String) : Option MessageHandler := do
  let handled ← MessageFactory.handleRequest sha256 h.routingTable request transactionId
  let node := { h.node with
    routingTable := handled.routingTable
    sendQueue := h.node.sendQueue ++ handled.notified }
  return { h with node := node }

/--
One step, if it is possible: the chord loop looks at the flags before it starts something, the
dispatcher sorts messages by their kind and only messages that are done are cleaned up.
-/
def step (sha256 : String → String) (h : MessageHandler) : Event → Option MessageHandler
  | .stabilize transactionId =>
    if h.node.stabilizeFlag then
      none
    else
      let result := Stabilize.createRequest { h.node with stabilizeFlag := true } transactionId
      some (h.pushBack result.1 (.stabilize result.2))
  | .checkPredecessor transactionId =>
    if h.node.checkPredecessorFlag then
      none
    else
      let result := CheckPredecessor.createRequest h.node transactionId
      some (h.pushBack result.1 (.checkPredecessor result.2))
  | .join address port transactionId =>
    let result := Join.createRequest h.node address port transactionId
    some (h.pushBack result.1 (.join result.2))
  | .response i response transactionId =>
    if response.message.isRequest then
      none
    else
      h.handleResponse i response transactionId
  | .timeOut i => h.timeOut i
  | .clean i =>
    match h.active i with
    | none => none
    | some m =>
      if m.isDone then
        some { h with active := Function.update h.active i none }
      else
        none
  | .request request transactionId =>
    if request.message.isRequest then
      h.handleRequest sha256 request transactionId
    else
      none

section Active

variable {h : MessageHandler} {node : Node} {m : ActiveMessage} {i j : Nat}

@[simp]
theorem pushBack_routingTable : (h.pushBack node m).routingTable = node.routingTable := rfl

@[simp]
theorem set_routingTable : (h.set i node m).routingTable = node.routingTable := rfl

theorem pushBack_active :
    (h.pushBack node m).active j = if j = h.next then some m else h.active j := by
  simp [pushBack, Function.update_apply]

theorem set_active : (h.set i node m).active j = if j = i then some m else h.active j := by
  simp [set, Function.update_apply]

end Active

section Table

variable {h h' : MessageHandler} {sha256 : String → String} {node : Node} {i : Nat}

inductive TableStep (h : MessageHandler) : Event → RoutingTable Peer → Prop where
  | grows {e : Event} {rt : RoutingTable Peer} (hgrows : h.routingTable.Grows rt) : TableStep h e rt
  | notified {request : RequestObject} {transactionId : String} (predecessor : Peer) :
    TableStep h (.request request transactionId) (h.routingTable.setPredecessor predecessor)
  | probeFailed {i : Nat} {c : CheckPredecessor} (hi : h.active i = some (.checkPredecessor c))
      (hdone : c.isDone = false) :
    TableStep h (.timeOut i) h.routingTable.resetPredecessor
  | stabilizeFailed {i : Nat} {s : Stabilize} (hi : h.active i = some (.stabilize s))
      (hdone : s.isDone = false) (hlength : s.dependencies.length = 1) :
    TableStep h (.timeOut i) h.routingTable.popFront
  | emptyAnswer {i : Nat} {response : RequestObject} {transactionId : String} {s : Stabilize}
      (hi : h.active i = some (.stabilize s)) (hresponse : response.message.isRequest = false)
      (hawaits : s.awaits .getPredAndSuccList) (hpeers : response.message.peers = []) :
    TableStep h (.response i response transactionId) h.routingTable.popFront

theorem handleResponse_tableStep {response : RequestObject} {transactionId : String}
    (hresponse : response.message.isRequest = false)
    (hstep : h.handleResponse i response transactionId = some h') :
    TableStep h (.response i response transactionId) h'.routingTable := by
  unfold handleResponse at hstep
  split at hstep
  . cases hstep
  . next s hi =>
    simp only [Option.some.injEq] at hstep
    subst hstep
    rcases s.receive_routingTable h.node transactionId hresponse with
      hgrows | ⟨hawaits, hpeers, hpop⟩
    . exact .grows hgrows
    . rw [set_routingTable, hpop]
      exact .emptyAnswer hi hresponse hawaits hpeers
  . simp only [Option.bind_eq_bind, Option.bind_eq_some_iff, Option.pure_def,
      Option.some.injEq] at hstep
    rcases hstep with ⟨⟨node, j⟩, hreceive, hstep⟩
    subst hstep
    exact .grows (Join.receive_grows hreceive)
  . simp only [Option.some.injEq] at hstep
    subst hstep
    rw [set_routingTable, CheckPredecessor.receive_routingTable hresponse]
    exact .grows (.refl _)

theorem timeOut_tableStep (hstep : h.timeOut i = some h') :
    TableStep h (.timeOut i) h'.routingTable := by
  unfold timeOut at hstep
  split at hstep
  . cases hstep
  . next s hi =>
    simp only [Option.some.injEq] at hstep
    subst hstep
    rw [set_routingTable, Stabilize.timeOut_routingTable]
    split
    . next hfailed => exact .stabilizeFailed hi hfailed.1 hfailed.2
    . exact .grows (.refl _)
  . simp only [Option.some.injEq] at hstep
    subst hstep
    rw [set_routingTable, Join.timeOut_routingTable]
    exact .grows (.refl _)
  . next c hi =>
    simp only [Option.some.injEq] at hstep
    subst hstep
    rw [set_routingTable, CheckPredecessor.timeOut_routingTable]
    split
    . next hdone => exact .probeFailed hi hdone
    . exact .grows (.refl _)

theorem handleRequest_tableStep {request : RequestObject} {transactionId : String}
    (hstep : h.handleRequest sha256 request transactionId = some h') :
    TableStep h (.request request transactionId) h'.routingTable := by
  simp only [handleRequest, Option.bind_eq_bind, Option.bind_eq_some_iff, Option.pure_def,
    Option.some.injEq] at hstep
  rcases hstep with ⟨handled, hhandled, hstep⟩
  subst hstep
  rcases MessageFactory.handleRequest_routingTable hhandled with heq | ⟨predecessor, heq⟩
  . exact .grows (heq ▸ .refl _)
  . change TableStep h _ handled.routingTable
    rw [heq]
    exact .notified predecessor

theorem step_tableStep {e : Event} (hstep : h.step sha256 e = some h') :
    TableStep h e h'.routingTable := by
  cases e with
  | stabilize transactionId =>
    simp only [step] at hstep
    split at hstep
    . cases hstep
    . simp only [Option.some.injEq] at hstep
      subst hstep
      rw [pushBack_routingTable, Stabilize.createRequest_routingTable]
      exact .grows (.refl _)
  | checkPredecessor transactionId =>
    simp only [step] at hstep
    split at hstep
    . cases hstep
    . simp only [Option.some.injEq] at hstep
      subst hstep
      rw [pushBack_routingTable, CheckPredecessor.createRequest_routingTable]
      exact .grows (.refl _)
  | join address port transactionId =>
    simp only [step, Option.some.injEq] at hstep
    subst hstep
    exact .grows (.refl _)
  | response i response transactionId =>
    simp only [step] at hstep
    split at hstep
    . cases hstep
    . next hresponse =>
      exact handleResponse_tableStep (by simpa using hresponse) hstep
  | timeOut i => exact timeOut_tableStep hstep
  | clean i =>
    simp only [step] at hstep
    split at hstep
    . cases hstep
    . split at hstep
      . simp only [Option.some.injEq] at hstep
        subst hstep
        exact .grows (.refl _)
      . cases hstep
  | request request transactionId =>
    simp only [step] at hstep
    split at hstep
    . exact handleRequest_tableStep hstep
    . cases hstep

end Table

section Active

variable {h h' : MessageHandler} {sha256 : String → String} {i : Nat} {m : ActiveMessage}

inductive Creates (h : MessageHandler) : ActiveMessage → Prop where
  | stabilize (transactionId : String) :
    Creates h (.stabilize
      (Stabilize.createRequest { h.node with stabilizeFlag := true } transactionId).2)
  | join (address port transactionId : String) :
    Creates h (.join (Join.createRequest h.node address port transactionId).2)
  | checkPredecessor (transactionId : String) :
    Creates h (.checkPredecessor (CheckPredecessor.createRequest h.node transactionId).2)

inductive ActiveStep (h h' : MessageHandler) (i : Nat) : ActiveMessage → Prop where
  | kept {m : ActiveMessage} (hi : h.active i = some m) : ActiveStep h h' i m
  | stabilizeReceives {s : Stabilize} {response : RequestObject} {transactionId : String}
      (hi : h.active i = some (.stabilize s)) (hresponse : response.message.isRequest = false) :
    ActiveStep h h' i (.stabilize (s.receive h.node response transactionId).2)
  | stabilizeTimesOut {s : Stabilize} (hi : h.active i = some (.stabilize s)) :
    ActiveStep h h' i (.stabilize (s.timeOut h.node).2)
  | joins {j j' : Join} (hi : h.active i = some (.join j)) : ActiveStep h h' i (.join j')
  | probeReceives {c : CheckPredecessor} {response : RequestObject}
      (hi : h.active i = some (.checkPredecessor c))
      (hresponse : response.message.isRequest = false) :
    ActiveStep h h' i (.checkPredecessor (c.receive h.node response).2)
  | probeTimesOut {c : CheckPredecessor} (hi : h.active i = some (.checkPredecessor c)) :
    ActiveStep h h' i (.checkPredecessor (c.timeOut h.node).2)
  | created {m : ActiveMessage} (hi : i = h.next) (hnext : h'.next = h.next + 1)
      (htable : h'.routingTable = h.routingTable) (hm : h.Creates m) : ActiveStep h h' i m

theorem pushBack_activeStep {node : Node} {m' : ActiveMessage}
    (htable : node.routingTable = h.routingTable) (hm : h.Creates m)
    (hi : (h.pushBack node m).active i = some m') : ActiveStep h (h.pushBack node m) i m' := by
  rw [pushBack_active] at hi
  split at hi
  . next heq =>
    cases hi
    exact .created heq rfl htable hm
  . exact .kept hi

theorem set_activeStep {node : Node} {j : Nat} {m' : ActiveMessage}
    (hm : ActiveStep h (h.set j node m) j m) (hi : (h.set j node m).active i = some m') :
    ActiveStep h (h.set j node m) i m' := by
  rw [set_active] at hi
  split at hi
  . next heq =>
    cases hi
    exact heq ▸ hm
  . exact .kept hi

theorem handleResponse_activeStep {j : Nat} {response : RequestObject} {transactionId : String}
    (hresponse : response.message.isRequest = false)
    (hstep : h.handleResponse j response transactionId = some h') (hi : h'.active i = some m) :
    ActiveStep h h' i m := by
  unfold handleResponse at hstep
  split at hstep
  . cases hstep
  . next s hj =>
    simp only [Option.some.injEq] at hstep
    subst hstep
    exact set_activeStep (.stabilizeReceives hj hresponse) hi
  . next j hj =>
    simp only [Option.bind_eq_bind, Option.bind_eq_some_iff, Option.pure_def,
      Option.some.injEq] at hstep
    rcases hstep with ⟨⟨node, j'⟩, _, hstep⟩
    subst hstep
    exact set_activeStep (.joins hj) hi
  . next c hj =>
    simp only [Option.some.injEq] at hstep
    subst hstep
    exact set_activeStep (.probeReceives hj hresponse) hi

theorem timeOut_activeStep {j : Nat} (hstep : h.timeOut j = some h') (hi : h'.active i = some m) :
    ActiveStep h h' i m := by
  unfold timeOut at hstep
  split at hstep
  . cases hstep
  . next s hj =>
    simp only [Option.some.injEq] at hstep
    subst hstep
    exact set_activeStep (.stabilizeTimesOut hj) hi
  . next j hj =>
    simp only [Option.some.injEq] at hstep
    subst hstep
    exact set_activeStep (.joins hj) hi
  . next c hj =>
    simp only [Option.some.injEq] at hstep
    subst hstep
    exact set_activeStep (.probeTimesOut hj) hi

theorem step_activeStep {e : Event} (hstep : h.step sha256 e = some h')
    (hi : h'.active i = some m) : ActiveStep h h' i m := by
  cases e with
  | stabilize transactionId =>
    simp only [step] at hstep
    split at hstep
    . cases hstep
    . simp only [Option.some.injEq] at hstep
      subst hstep
      exact pushBack_activeStep Stabilize.createRequest_routingTable (.stabilize _) hi
  | checkPredecessor transactionId =>
    simp only [step] at hstep
    split at hstep
    . cases hstep
    . simp only [Option.some.injEq] at hstep
      subst hstep
      exact pushBack_activeStep CheckPredecessor.createRequest_routingTable (.checkPredecessor _) hi
  | join address port transactionId =>
    simp only [step, Option.some.injEq] at hstep
    subst hstep
    exact pushBack_activeStep rfl (.join _ _ _) hi
  | response j response transactionId =>
    simp only [step] at hstep
    split at hstep
    . cases hstep
    . next hresponse => exact handleResponse_activeStep (by simpa using hresponse) hstep hi
  | timeOut j => exact timeOut_activeStep hstep hi
  | clean j =>
    simp only [step] at hstep
    split at hstep
    . cases hstep
    . split at hstep
      . simp only [Option.some.injEq] at hstep
        subst hstep
        simp only [Function.update_apply] at hi
        split at hi
        . cases hi
        . exact .kept hi
      . cases hstep
  | request request transactionId =>
    simp only [step] at hstep
    split at hstep
    . simp only [handleRequest, Option.bind_eq_bind, Option.bind_eq_some_iff, Option.pure_def,
        Option.some.injEq] at hstep
      rcases hstep with ⟨handled, _, hstep⟩
      subst hstep
      exact .kept hi
    . cases hstep

theorem handleResponse_next {response : RequestObject} {transactionId : String}
    (hstep : h.handleResponse i response transactionId = some h') : h'.next = h.next := by
  unfold handleResponse at hstep
  split at hstep
  . cases hstep
  . simp only [Option.some.injEq] at hstep
    rw [← hstep]
    rfl
  . simp only [Option.bind_eq_bind, Option.bind_eq_some_iff, Option.pure_def,
      Option.some.injEq] at hstep
    rcases hstep with ⟨_, _, hstep⟩
    rw [← hstep]
    rfl
  . simp only [Option.some.injEq] at hstep
    rw [← hstep]
    rfl

theorem timeOut_next (hstep : h.timeOut i = some h') : h'.next = h.next := by
  unfold timeOut at hstep
  split at hstep
  . cases hstep
  all_goals
    simp only [Option.some.injEq] at hstep
    rw [← hstep]
    rfl

def Fresh (h : MessageHandler) : Prop :=
  ∀ i m, h.active i = some m → i < h.next

theorem step_next_le {e : Event} (hstep : h.step sha256 e = some h') : h.next ≤ h'.next := by
  cases e with
  | stabilize transactionId =>
    simp only [step, Option.ite_none_left_eq_some, Option.some.injEq] at hstep
    rw [← hstep.2]
    exact Nat.le_succ _
  | checkPredecessor transactionId =>
    simp only [step, Option.ite_none_left_eq_some, Option.some.injEq] at hstep
    rw [← hstep.2]
    exact Nat.le_succ _
  | join address port transactionId =>
    simp only [step, Option.some.injEq] at hstep
    rw [← hstep]
    exact Nat.le_succ _
  | response j response transactionId =>
    simp only [step, Option.ite_none_left_eq_some] at hstep
    exact (handleResponse_next hstep.2).ge
  | timeOut j => exact (timeOut_next hstep).ge
  | clean j =>
    simp only [step] at hstep
    split at hstep
    . cases hstep
    . simp only [Option.ite_none_right_eq_some, Option.some.injEq] at hstep
      rw [← hstep.2]
  | request request transactionId =>
    simp only [step, handleRequest, Option.ite_none_right_eq_some, Option.bind_eq_bind,
      Option.bind_eq_some_iff, Option.pure_def, Option.some.injEq] at hstep
    rcases hstep with ⟨_, handled, _, hstep⟩
    rw [← hstep]

theorem Fresh.step (hfresh : h.Fresh) {e : Event} (hstep : h.step sha256 e = some h') :
    h'.Fresh := by
  intro i m hm
  have hle := step_next_le hstep
  cases step_activeStep hstep hm with
  | kept hi => exact (hfresh i _ hi).trans_le hle
  | stabilizeReceives hi => exact (hfresh i _ hi).trans_le hle
  | stabilizeTimesOut hi => exact (hfresh i _ hi).trans_le hle
  | joins hi => exact (hfresh i _ hi).trans_le hle
  | probeReceives hi => exact (hfresh i _ hi).trans_le hle
  | probeTimesOut hi => exact (hfresh i _ hi).trans_le hle
  | created hi hnext => omega

end Active

end MessageHandler

end Peerpaste
