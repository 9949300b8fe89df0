import Peerpaste.MessageHandler.Basic

/-!
This module contains what a running node makes of the answer of its successor: whose list it
installs and which peer it asks next.
-/

namespace Peerpaste

namespace Stabilize

def Asks (s : Stabilize) (p : Peer) : Prop :=
  ∃ request, s.dependencies.head? = some (.waiting .getSelfAndSuccList request)
    ∧ request.connection = .peer p

variable {node : Node} {s : Stabilize} {target p successor self : Peer} {l : List Peer}
  {response : RequestObject}

theorem popFront_self (rt : RoutingTable Peer) : rt.popFront.self = rt.self := by
  unfold RoutingTable.popFront
  split
  . rfl
  . rfl

theorem receive_self (node : Node) (s : Stabilize) (response : RequestObject)
    (transactionId : String) :
    (s.receive node response transactionId).1.routingTable.self = node.routingTable.self := by
  have hview (s : Stabilize) (promise : List Peer) :
      (handleGetPredAndSuccListNotify node s promise transactionId).1.routingTable.self
        = node.routingTable.self := by
    cases promise with
    | nil => apply popFront_self
    | cons peer peers =>
      simp only [handleGetPredAndSuccListNotify]
      split
      . rfl
      split
      . rfl
      split
      . rfl
      . rfl
  have hnotification (s : Stabilize) (promise : List Peer) :
      (handleNotification node s promise transactionId).1.routingTable.self
        = node.routingTable.self := by
    unfold handleNotification
    split
    . rfl
    split
    . rfl
    split
    . apply hview
    . rfl
    . rfl
    . rfl
  unfold receive
  split
  . rfl
  split
  . apply hnotification
  . rfl

theorem timeOut_self : (s.timeOut node).1.routingTable.self = node.routingTable.self := by
  rw [timeOut_routingTable]
  split
  . apply popFront_self
  . rfl

theorem receive_predAndSuccList (transactionId : String) (hs : s.unanswered = some target)
    (hresponse : response.message.isRequest = false) (hpeers : response.message.peers = p :: l)
    (hself : node.routingTable.self = some self)
    (hsucc : node.routingTable.tryGetSuccessor = some successor) :
    let result := s.receive node response transactionId
    result.1.routingTable.successorList
        = RoutingTable.resize (successor :: if l = [] then [p] else l)
      ∧
    (result.2.Asks p ↔ Clockwise.Between self.id p.id successor.id) := by
  -- the list of the answer goes behind whoever is the successor now, and the predecessor in it is
  -- compared with that peer
  rcases unanswered_eq_some hs with ⟨r, state, hd, _⟩
  have hlist : (if (p :: l).length > 1 then l else p :: l) = if l = [] then [p] else l := by
    cases l with
    | nil => rfl
    | cons q l => simp
  rw [receive_eq hd rfl, ← util.between_iff]
  simp only [handleNotification, answer, handleResponse, GetPredAndSuccList.handleResponse,
    hresponse, Bool.false_eq_true, ↓reduceIte, Bool.not_true, ne_eq, not_true_eq_false,
    decide_false, Bool.or_self, hpeers, handleGetPredAndSuccListNotify, RoutingTable.tryGetSelf,
    hself, hsucc, hlist]
  cases util.between self.id p.id successor.id with
  | true =>
    simp only [↓reduceIte, iff_true]
    exact ⟨rfl, _, rfl, rfl⟩
  | false =>
    simp only [Bool.false_eq_true, ↓reduceIte, iff_false]
    refine ⟨rfl, ?_⟩
    intro hasks
    rcases hasks with ⟨request, hrequest, _⟩
    cases congrArg (Option.map Dependency.type) hrequest

theorem receive_noSuccessor (transactionId : String) (hs : s.unanswered = some target)
    (hresponse : response.message.isRequest = false) (hpeers : response.message.peers = p :: l)
    (hsucc : node.routingTable.tryGetSuccessor = none) :
    (s.receive node response transactionId).1.routingTable.successorList = [] := by
  rcases unanswered_eq_some hs with ⟨r, state, hd, _⟩
  have hnil : node.routingTable.successorList = [] := by
    simpa [RoutingTable.tryGetSuccessor] using hsucc
  rw [receive_eq hd rfl]
  simp only [handleNotification, answer, handleResponse, GetPredAndSuccList.handleResponse,
    hresponse, Bool.false_eq_true, ↓reduceIte, Bool.not_true, ne_eq, not_true_eq_false,
    decide_false, Bool.or_self, hpeers, handleGetPredAndSuccListNotify, hsucc]
  split
  . exact hnil
  . exact hnil

end Stabilize

namespace RoutingTable

theorem resize_cons_eq_take_iff {q t p : Peer} {l : List Peer} :
    resize (q :: if l = [] then [p] else l) = (t :: l).take succListSize
      ↔
    q = t ∧ succListSize ≤ l.length + 1 := by
  -- a list is cut to its first entries exactly if it does not have to be filled up
  constructor
  . intro heq
    have hlength := congrArg List.length heq
    rw [resize_length, List.length_take, List.length_cons] at hlength
    have hhead := congrArg List.head? heq
    rw [head?_resize_cons] at hhead
    refine ⟨?_, by omega⟩
    simpa [succListSize] using hhead
  . intro h
    have hl : l ≠ [] := by
      rintro rfl
      have := h.2
      simp [succListSize] at this
    rw [if_neg hl, resize_eq_take (by simpa using h.2), h.1]

end RoutingTable

namespace MessageHandler

/--
The answer of the peer that a `Stabilize` has asked, a predecessor and a list, becomes the view of
that peer: the list behind the peer itself, and the predecessor is asked next if it is between.
-/
def InstallsView (sha256 : String → String) (h : MessageHandler) (e : Event) : Prop :=
  ∀ i response transactionId s target p l, e = .response i response transactionId →
    response.message.isRequest = false → h.active i = some (.stabilize s) →
    s.unanswered = some target → response.message.peers = p :: l →
    ∃ h' s' self, h.step sha256 e = some h' ∧ h'.active i = some (.stabilize s')
      ∧ h.routingTable.self = some self
      ∧ h'.routingTable.successorList = (target :: l).take RoutingTable.succListSize
      ∧ (s'.Asks p ↔ Clockwise.Between self.id p.id target.id)

def AnsweredByFront (h : MessageHandler) : Event → Prop
  | .response i response _ => ∀ s target p l, response.message.isRequest = false →
    h.active i = some (.stabilize s) → s.unanswered = some target →
    response.message.peers = p :: l →
    h.routingTable.tryGetSuccessor = some target ∧ RoutingTable.succListSize ≤ l.length + 1
  | _ => True

variable {sha256 : String → String} {h h' : MessageHandler} {e : Event}

theorem setSuccessor_self (rt : RoutingTable Peer) (p : Peer) :
    (rt.setSuccessor p).self = rt.self := by
  unfold RoutingTable.setSuccessor
  split
  . rfl
  . rfl

theorem replaceAfterSuccessor_self {rt rt' : RoutingTable Peer} {l : List Peer}
    (h : rt.replaceAfterSuccessor l = some rt') : rt'.self = rt.self := by
  unfold RoutingTable.replaceAfterSuccessor at h
  split at h
  . cases h
  . cases h
    rfl

theorem join_receive_self {node node' : Node} {j j' : Join} {response : RequestObject}
    {transactionId : String} (hself : node.routingTable.self.isSome)
    (hreceive : j.receive node response transactionId = some (node', j')) :
    node'.routingTable.self.isSome := by
  have hquery : (Query.handleResponse node.routingTable response).1.routingTable.self.isSome := by
    unfold Query.handleResponse
    split
    . rfl
    . exact hself
  simp only [Join.receive] at hreceive
  split at hreceive
  . split at hreceive
    . split at hreceive
      . cases hreceive
        exact hquery
      . simp only [Join.handleQueryNotify, FindSuccessor.createRequest, Option.bind_eq_bind,
          Option.bind_some, Option.pure_def, Option.some.injEq] at hreceive
        cases hreceive
        exact hquery
    . simp only [Option.bind_eq_bind, Option.bind_eq_some_iff, Option.pure_def,
        Option.some.injEq] at hreceive
      rcases hreceive with ⟨⟨_, successor⟩, _, hreceive⟩
      cases hreceive
      exact (setSuccessor_self _ _).symm ▸ hself
    . simp only [Join.handleGetSuccessorListNotify, GetSuccessorList.handleResponse,
        Option.bind_eq_bind, Option.bind_eq_some_iff, Option.pure_def, Option.some.injEq]
          at hreceive
      rcases hreceive with ⟨rt, hrt, hreceive⟩
      cases hreceive
      exact (replaceAfterSuccessor_self hrt).symm ▸ hself
    . cases hreceive
      exact hself
  . cases hreceive
    exact hself

theorem step_self (hself : h.routingTable.self.isSome) (hstep : h.step sha256 e = some h') :
    h'.routingTable.self.isSome := by
  cases e with
  | stabilize transactionId =>
    simp only [step, Option.ite_none_left_eq_some, Option.some.injEq] at hstep
    rw [← hstep.2, pushBack_routingTable, Stabilize.createRequest_routingTable]
    exact hself
  | checkPredecessor transactionId =>
    simp only [step, Option.ite_none_left_eq_some, Option.some.injEq] at hstep
    rw [← hstep.2, pushBack_routingTable, CheckPredecessor.createRequest_routingTable]
    exact hself
  | join address port transactionId =>
    simp only [step, Option.some.injEq] at hstep
    rw [← hstep]
    exact hself
  | response i response transactionId =>
    simp only [step, Option.ite_none_left_eq_some, handleResponse] at hstep
    rcases hstep with ⟨hresponse, hstep⟩
    split at hstep
    . cases hstep
    . simp only [Option.some.injEq] at hstep
      rw [← hstep, set_routingTable, Stabilize.receive_self]
      exact hself
    . simp only [Option.bind_eq_bind, Option.bind_eq_some_iff, Option.pure_def,
        Option.some.injEq] at hstep
      rcases hstep with ⟨⟨node, j⟩, hreceive, hstep⟩
      rw [← hstep]
      exact join_receive_self hself hreceive
    . simp only [Option.some.injEq] at hstep
      rw [← hstep, set_routingTable, CheckPredecessor.receive_routingTable
        (by simpa using hresponse)]
      exact hself
  | timeOut i =>
    simp only [step, timeOut] at hstep
    split at hstep
    . cases hstep
    . simp only [Option.some.injEq] at hstep
      rw [← hstep, set_routingTable, Stabilize.timeOut_self]
      exact hself
    . simp only [Option.some.injEq] at hstep
      rw [← hstep, set_routingTable, Join.timeOut_routingTable]
      exact hself
    . simp only [Option.some.injEq] at hstep
      rw [← hstep, set_routingTable, CheckPredecessor.timeOut_routingTable]
      split
      . exact hself
      . exact hself
  | clean i =>
    simp only [step] at hstep
    split at hstep
    . cases hstep
    . simp only [Option.ite_none_right_eq_some, Option.some.injEq] at hstep
      rw [← hstep.2]
      exact hself
  | request request transactionId =>
    simp only [step, handleRequest, Option.ite_none_right_eq_some, Option.bind_eq_bind,
      Option.bind_eq_some_iff, Option.pure_def, Option.some.injEq] at hstep
    rcases hstep with ⟨_, handled, hhandled, hstep⟩
    rw [← hstep]
    change handled.routingTable.self.isSome
    rcases MessageFactory.handleRequest_routingTable hhandled with heq | ⟨predecessor, heq⟩
    . rw [heq]
      exact hself
    . rw [heq]
      exact hself

theorem step_stabilizeReceives {i : Nat} {s : Stabilize} {response : RequestObject}
    (transactionId : String) (hresponse : response.message.isRequest = false)
    (hi : h.active i = some (.stabilize s)) :
    h.step sha256 (.response i response transactionId) =
      some (h.set i (s.receive h.node response transactionId).1
        (.stabilize (s.receive h.node response transactionId).2)) := by
  simp only [step, hresponse, Bool.false_eq_true, ↓reduceIte, handleResponse, hi]

theorem installsView_iff (hself : h.routingTable.self.isSome) (e : Event) :
    InstallsView sha256 h e ↔ AnsweredByFront h e := by
  -- one answer is installed as the view of the peer that sent it if and only if that peer is still
  -- the successor and its list fills the table
  rcases Option.isSome_iff_exists.mp hself with ⟨self, hself⟩
  constructor
  . intro hview
    cases e with
    | response i response transactionId =>
      intro s target p l hresponse hi hs hpeers
      rcases hview i response transactionId s target p l rfl hresponse hi hs hpeers with
        ⟨h', s', self', hstep, hi', hself', hlist, hasks⟩
      rw [step_stabilizeReceives transactionId hresponse hi, Option.some.injEq] at hstep
      rw [← hstep, set_routingTable] at hlist
      cases hsucc : h.routingTable.tryGetSuccessor with
      | none =>
        rw [Stabilize.receive_noSuccessor transactionId hs hresponse hpeers hsucc] at hlist
        simp [RoutingTable.succListSize] at hlist
      | some successor =>
        rw [(Stabilize.receive_predAndSuccList transactionId hs hresponse hpeers hself hsucc).1,
          RoutingTable.resize_cons_eq_take_iff] at hlist
        rw [hlist.1]
        exact ⟨rfl, hlist.2⟩
    | stabilize transactionId => trivial
    | checkPredecessor transactionId => trivial
    | join address port transactionId => trivial
    | timeOut i => trivial
    | clean i => trivial
    | request request transactionId => trivial
  . intro hfront i response transactionId s target p l he hresponse hi hs hpeers
    subst he
    rcases hfront s target p l hresponse hi hs hpeers with ⟨hsucc, hlength⟩
    have hreceive := Stabilize.receive_predAndSuccList transactionId hs hresponse hpeers hself hsucc
    have hlist := hreceive.1
    rw [RoutingTable.resize_cons_eq_take_iff.mpr ⟨rfl, hlength⟩] at hlist
    have hi' : (h.set i (s.receive h.node response transactionId).1
        (.stabilize (s.receive h.node response transactionId).2)).active i =
          some (.stabilize (s.receive h.node response transactionId).2) := by
      rw [set_active, if_pos rfl]
    exact ⟨_, _, self, step_stabilizeReceives transactionId hresponse hi, hi', hself,
      hlist, hreceive.2⟩

theorem installsView_along_iff (sha256 : String → String) (self : Peer) (events : List Event) :
    Run.Along (step sha256) (InstallsView sha256) (init self) events
      ↔
    Run.Along (step sha256) AnsweredByFront (init self) events := by
  apply Run.along_congr (fun h e h' hself hstep => step_self hself hstep)
  . intro h e hself
    exact installsView_iff hself e
  . rfl

/--
The node asks itself, as it is its own successor at first, and a join gives it another successor
before it has answered.
-/
theorem not_installsView_along :
    let self : Peer := ⟨"5", "10.0.0.5", "6100"⟩
    let successor : Peer := ⟨"8", "10.0.0.8", "6100"⟩
    let predecessor : Peer := ⟨"2", "10.0.0.2", "6100"⟩
    let response (peers : List Peer) : RequestObject :=
      ⟨{ header := ⟨false, 0, 0, "", "t", "t", "", ""⟩, peers := peers }, .session ⟨0, ""⟩⟩
    ¬ Run.Along (step fun _ => "") (InstallsView fun _ => "") (init self)
      [.stabilize "t1", .join "10.0.0.8" "6100" "t2", .response 1 (response [self]) "t3",
        .response 1 (response [successor]) "t4",
          .response 0 (response [predecessor, self]) "t5"] := by
  intro self successor predecessor response h
  let events := [Event.stabilize "t1", .join "10.0.0.8" "6100" "t2",
    .response 1 (response [self]) "t3", .response 1 (response [successor]) "t4"]
  let request : RequestObject :=
    ⟨Message.createRequest "get_predecessor_and_succ_list" [] "t1", .peer self⟩
  have hreached : (Run.exec (step fun _ => "") (init self) events).map
      (fun t => (t.routingTable.self.isSome, t.routingTable.tryGetSuccessor, t.active 0)) =
        some (true, some successor,
          some (.stabilize { dependencies := [.waiting .getPredAndSuccList request] })) := by
    decide
  rcases Option.map_eq_some_iff.mp hreached with ⟨t, ht, heq⟩
  simp only [Prod.mk.injEq] at heq
  have hview := Run.Along.of_exec events h ht
  rw [installsView_iff heq.1] at hview
  have hfront := hview _ self predecessor [self] rfl heq.2.2 rfl rfl
  rw [heq.2.1] at hfront
  exact absurd hfront.1 (by decide)

end MessageHandler

end Peerpaste
