import Peerpaste.MessageHandler.Basic

/-!
This module contains which requests a node answers: the one response that the sender of a request
waits for and when handling the request pushes it.
-/

namespace Peerpaste

structure RequestObject.IsResponseTo (response request : RequestObject) : Prop where
  connection : response.connection = request.connection
  tFlag : response.message.header.tFlag = false
  requestType : response.message.header.requestType = request.message.header.requestType
  correlationalId : response.message.header.correlationalId = request.message.header.transactionId

structure Handled.Answers (h : Handled) (request response : RequestObject) : Prop where
  notified : h.notified = [response]
  isResponseTo : response.IsResponseTo request
  state : h.state = .done
  isDone : h.isDone = true

inductive Answerable (rt : RoutingTable Peer) (request : RequestObject) : Prop where
  | notify (p : Peer) (htype : request.message.header.requestType = "notify")
      (hpeers : request.message.peers = [p])
  | query (p : Peer) (htype : request.message.header.requestType = "query")
      (hpeers : request.message.peers = [p])
  | findSuccessor (p s : Peer) (htype : request.message.header.requestType = "find_successor")
      (hpeers : request.message.peers = [p]) (hlocal : FindSuccessor.findSuccessor rt p.id = some s)
  | checkPredecessor (htype : request.message.header.requestType = "check_predecessor")
  | getSuccessorList (htype : request.message.header.requestType = "get_successor_list")
  | getPredAndSuccList
      (htype : request.message.header.requestType = "get_predecessor_and_succ_list")
  | getSelfAndSuccList
      (htype : request.message.header.requestType = "get_self_and_successor_list")

theorem RequestObject.respond_isResponseTo (request : RequestObject) (peers : List Peer)
    (transactionId : String) : (request.respond peers transactionId).IsResponseTo request :=
  ⟨rfl, rfl, rfl, rfl⟩

section Handlers

variable {rt : RoutingTable Peer} {request : RequestObject}

theorem answers_respond (rt : RoutingTable Peer) (request : RequestObject) (peers : List Peer)
    (transactionId : String) :
    (⟨rt, .done, true, [request.respond peers transactionId]⟩ : Handled).Answers request
      (request.respond peers transactionId) :=
  ⟨rfl, request.respond_isResponseTo peers transactionId, rfl, rfl⟩

theorem notification_answers_iff (transactionId : String) {p : Peer}
    (hpeers : request.message.peers = [p]) :
    (∃ response, (Notification.handleRequest rt request transactionId).Answers request response)
      ↔
    rt.hasPredecessor = true := by
  unfold RoutingTable.hasPredecessor
  cases hpred : rt.predecessor with
  | none =>
    simp only [Option.isSome_none, Bool.false_eq_true, iff_false]
    intro h
    rcases h with ⟨response, hresponse⟩
    have hnotified := hresponse.notified
    simp [Notification.handleRequest, hpeers, RoutingTable.tryGetPredecessor, hpred] at hnotified
  | some predecessor =>
    simp only [Option.isSome_some, iff_true]
    refine ⟨request.respond [] transactionId, ?_⟩
    simp only [Notification.handleRequest, hpeers, RoutingTable.tryGetPredecessor, hpred]
    apply answers_respond

theorem getPredAndSuccList_answers (rt : RoutingTable Peer) (request : RequestObject)
    (transactionId : String) :
    ∃ response, (GetPredAndSuccList.handleRequest rt request transactionId).Answers request
      response := by
  unfold GetPredAndSuccList.handleRequest
  split
  . exact ⟨_, answers_respond _ _ _ _⟩
  . exact ⟨_, answers_respond _ _ _ _⟩

theorem MessageFactory.exists_answers_iff (sha256 : String → String) (transactionId : String)
    (hrequest : Answerable rt request) :
    (∃ handled response, MessageFactory.handleRequest sha256 rt request transactionId = some handled
        ∧ handled.Answers request response)
      ↔
    (request.message.header.requestType = "notify" → rt.hasPredecessor = true) := by
  cases hrequest with
  | notify p htype hpeers =>
    rw [← notification_answers_iff transactionId hpeers]
    simp [MessageFactory.handleRequest, htype]
  | query p htype hpeers =>
    simp only [MessageFactory.handleRequest, htype, Query.handleRequest, hpeers]
    simp only [String.reduceEq, ↓reduceIte, false_implies, iff_true]
    exact ⟨_, _, rfl, answers_respond _ _ _ _⟩
  | findSuccessor p s htype hpeers hlocal =>
    simp only [MessageFactory.handleRequest, htype, FindSuccessor.handleRequest, hpeers, hlocal]
    simp only [String.reduceEq, ↓reduceIte, false_implies, iff_true]
    exact ⟨_, _, rfl, answers_respond _ _ _ _⟩
  | checkPredecessor htype =>
    simp only [MessageFactory.handleRequest, htype]
    simp only [String.reduceEq, ↓reduceIte, false_implies, iff_true]
    exact ⟨_, _, rfl, answers_respond _ _ _ _⟩
  | getSuccessorList htype =>
    simp only [MessageFactory.handleRequest, htype]
    simp only [String.reduceEq, ↓reduceIte, false_implies, iff_true]
    exact ⟨_, _, rfl, answers_respond _ _ _ _⟩
  | getPredAndSuccList htype =>
    simp only [MessageFactory.handleRequest, htype]
    simp only [String.reduceEq, ↓reduceIte, false_implies, iff_true]
    rcases getPredAndSuccList_answers rt request transactionId with ⟨response, hresponse⟩
    exact ⟨_, response, rfl, hresponse⟩
  | getSelfAndSuccList htype =>
    simp only [MessageFactory.handleRequest, htype]
    simp only [String.reduceEq, ↓reduceIte, false_implies, iff_true]
    exact ⟨_, _, rfl, answers_respond _ _ _ _⟩

end Handlers

namespace MessageHandler

def AnswersOnce (sha256 : String → String) (h : MessageHandler) (request : RequestObject)
    (transactionId : String) : Prop :=
  ∃ h' handled response, h.handleRequest sha256 request transactionId = some h'
    ∧ MessageFactory.handleRequest sha256 h.routingTable request transactionId = some handled
    ∧ handled.Answers request response
    ∧ h'.node.sendQueue = h.node.sendQueue ++ [response]

theorem answersOnce_iff (sha256 : String → String) (h : MessageHandler) (request : RequestObject)
    (transactionId : String) (hrequest : Answerable h.routingTable request) :
    h.AnswersOnce sha256 request transactionId
      ↔
    (request.message.header.requestType = "notify" → h.routingTable.hasPredecessor = true) := by
  rw [← MessageFactory.exists_answers_iff sha256 transactionId hrequest]
  constructor
  . intro hanswers
    rcases hanswers with ⟨_, handled, response, _, hhandled, hresponse, _⟩
    exact ⟨handled, response, hhandled, hresponse⟩
  . intro hanswers
    rcases hanswers with ⟨handled, response, hhandled, hresponse⟩
    have hqueue : h.handleRequest sha256 request transactionId =
        some { h with node := { h.node with
          routingTable := handled.routingTable
          sendQueue := h.node.sendQueue ++ [response] } } := by
      simp [handleRequest, hhandled, hresponse.notified]
    exact ⟨_, handled, response, hqueue, hhandled, hresponse, rfl⟩

theorem answersOnce_secondNotify :
    let self : Peer := ⟨"3", "10.0.0.3", "6100"⟩
    let first : Peer := ⟨"1", "10.0.0.1", "6100"⟩
    let second : Peer := ⟨"2", "10.0.0.2", "6100"⟩
    let h : MessageHandler :=
      { init self with node := { routingTable := ⟨some self, some first, [self]⟩ } }
    h.AnswersOnce (fun _ => "")
      ⟨Message.createRequest "notify" [second] "t0", .session ⟨0, second.ip⟩⟩ "t1" := by
  intro self first second h
  apply (answersOnce_iff (fun _ => "") h _ "t1" (.notify second rfl rfl)).mpr
  intro _
  rfl

/--
The first notifier is installed and left without an answer.
-/
theorem not_answersOnce_firstNotify :
    let self : Peer := ⟨"3", "10.0.0.3", "6100"⟩
    let first : Peer := ⟨"1", "10.0.0.1", "6100"⟩
    ¬ (init self).AnswersOnce (fun _ => "")
      ⟨Message.createRequest "notify" [first] "t0", .session ⟨0, first.ip⟩⟩ "t1" := by
  intro self first hanswers
  rcases hanswers with ⟨_, handled, response, _, hhandled, hresponse, _⟩
  have hfailed : MessageFactory.handleRequest (fun _ => "") (init self).routingTable
      ⟨Message.createRequest "notify" [first] "t0", .session ⟨0, first.ip⟩⟩ "t1" =
        some ⟨⟨some self, some first, [self]⟩, .failed, false, []⟩ := by
    decide
  rw [hfailed, Option.some.injEq] at hhandled
  have hnotified := hresponse.notified
  rw [← hhandled] at hnotified
  cases hnotified

end MessageHandler

end Peerpaste
