import Peerpaste.Dispatcher.Basic

/-!
This module contains what one call, be it with a response or of `check_state`, leaves of a message
object.
-/

namespace Peerpaste

structure RoutingTable.IsComplete (rt : RoutingTable Peer) : Prop where
  self : rt.self.isSome
  successor : rt.successorList ≠ []

namespace RoutingTable.IsComplete

variable {rt rt' : RoutingTable Peer}

theorem init (self : Peer) : (RoutingTable.init self).IsComplete := by
  constructor
  . rfl
  . simp [RoutingTable.init, RoutingTable.setSelf, RoutingTable.setSuccessor]

theorem setSelf (h : rt.IsComplete) (self : Peer) : (rt.setSelf self).IsComplete :=
  ⟨rfl, h.successor⟩

theorem setPredecessor (h : rt.IsComplete) (predecessor : Peer) :
    (rt.setPredecessor predecessor).IsComplete :=
  ⟨h.self, h.successor⟩

theorem resetPredecessor (h : rt.IsComplete) : rt.resetPredecessor.IsComplete :=
  ⟨h.self, h.successor⟩

theorem setSuccessor (h : rt.IsComplete) (successor : Peer) :
    (rt.setSuccessor successor).IsComplete := by
  unfold RoutingTable.setSuccessor
  split
  . exact ⟨h.self, List.cons_ne_nil _ _⟩
  . exact ⟨h.self, List.cons_ne_nil _ _⟩

theorem replaceSuccessorList (h : rt.IsComplete) (l : List Peer) :
    (rt.replaceSuccessorList l).IsComplete := by
  refine ⟨h.self, ?_⟩
  apply List.ne_nil_of_length_pos
  simp [RoutingTable.replaceSuccessorList, succListSize]

theorem replaceAfterSuccessor (h : rt.IsComplete) (l : List Peer) :
    ∃ rt', rt.replaceAfterSuccessor l = some rt' ∧ rt'.IsComplete := by
  unfold RoutingTable.replaceAfterSuccessor
  split
  . next hnil => exact absurd hnil h.successor
  . refine ⟨_, rfl, h.self, ?_⟩
    apply List.ne_nil_of_length_pos
    simp [succListSize]

theorem popFront (h : rt.IsComplete) : rt.popFront.IsComplete := by
  unfold RoutingTable.popFront
  split
  . exact h
  . next hlength =>
    refine ⟨h.self, ?_⟩
    apply List.ne_nil_of_length_pos
    rw [List.length_tail]
    omega

theorem tryGetSelf (h : rt.IsComplete) : ∃ self, rt.tryGetSelf = some self :=
  Option.isSome_iff_exists.mp h.self

theorem tryGetSuccessor (h : rt.IsComplete) : ∃ successor, rt.tryGetSuccessor = some successor := by
  unfold RoutingTable.tryGetSuccessor
  rw [← Option.isSome_iff_exists, List.isSome_head?]
  simpa using h.successor

end RoutingTable.IsComplete

namespace MessageType

def dependencyTypes : MessageType → List MessageType
  | .join => [.query, .findSuccessor, .getSuccessorList]
  | .stabilize => [.getPredAndSuccList, .getSelfAndSuccList, .notification]
  | .broadcastFilelist => [.getFile]
  | _ => []

def resultTypes : List MessageType :=
  [.query, .findSuccessor, .getSuccessorList, .getSelfAndSuccList, .getPredAndSuccList]

end MessageType

namespace MessageObject

structure Proper (o : MessageObject) : Prop where
  promise : o.promise.isSome → o.isDone = true ∧ o.type ∈ MessageType.resultTypes
  getFile : o.type = .getFile → ∃ g, o.getFile = some g ∧ (g.outputFile.isSome → g.fileInfo.isSome)

def Answered (o : MessageObject) : Prop :=
  o.state = .done →
    match o.type with
    | .query | .findSuccessor => ∃ peer, o.promise = some (.peer (some peer))
    | .getSuccessorList | .getSelfAndSuccList | .getPredAndSuccList =>
      ∃ peers, o.promise = some (.peers (some peers))
    | _ => True

theorem Answered.of_ne {o : MessageObject} (h : o.state ≠ .done) : o.Answered := by
  intro hstate
  exact absurd hstate h

theorem Proper.of_promise {o : MessageObject} (hpromise : o.promise = none)
    (htype : o.type ≠ .getFile) :
    o.Proper := by
  constructor
  . simp [hpromise]
  . intro hfile
    exact absurd hfile htype

theorem Proper.promise_eq_none {o : MessageObject} (h : o.Proper) (hdone : o.isDone = false) :
    o.promise = none := by
  cases hpromise : o.promise with
  | none => rfl
  | some value =>
    have hisDone := (h.promise (by simp [hpromise])).1
    simp [hdone] at hisDone

variable {node node' : Node} {storage : StaticStorage} {o o' : MessageObject}
  {response : RequestObject} {sha256 : List UInt8 → String} {transactionId : String}

theorem setPromise_eq_ok {value : Promise} :
    o.setPromise value = .ok o' ↔ o.promise = none ∧ o' = { o with promise := some value } := by
  unfold setPromise
  cases hpromise : o.promise with
  | none => simp [eq_comm]
  | some value => simp

theorem ofOption_eq_ok {a : Option α} {b : α} : Crash.ofOption a = .ok b ↔ a = some b := by
  cases a with
  | none => simp [Crash.ofOption]
  | some a => simp [Crash.ofOption]

theorem answer_eq_ok {h : Handled} {value : Promise} {r : Responded} :
    answer node storage o h value = .ok r
      ↔
    o.promise = none
      ∧ r = ⟨{ node with routingTable := h.routingTable }, storage,
          { o with state := h.state, promise := some value, isDone := h.isDone }, true⟩ := by
  unfold answer setPromise
  cases hpromise : o.promise with
  | none => simp [bind, Except.bind, pure, Except.pure, eq_comm]
  | some value => simp [bind, Except.bind]

structure Responds (node : Node) (o : MessageObject) (r : Responded) : Prop where
  type : r.object.type = o.type
  request : r.object.request = o.request
  proper : o.Proper → r.object.Proper
  table : node.routingTable.IsComplete → r.node.routingTable.IsComplete

theorem Responds.of_answer {h : Handled} {value : Promise} {r : Responded} (hdone : h.isDone = true)
    (htype : o.type ∈ MessageType.resultTypes)
    (htable : node.routingTable.IsComplete → h.routingTable.IsComplete)
    (hr : answer node storage o h value = .ok r) : Responds node o r := by
  rw [answer_eq_ok] at hr
  rw [hr.2]
  refine ⟨rfl, rfl, ?_, htable⟩
  intro hproper
  exact ⟨fun _ => ⟨hdone, htype⟩, hproper.getFile⟩

theorem handleForwardedResponse_responds {r : Responded}
    (h : o.handleForwardedResponse node storage response transactionId = .ok r) :
    Responds node o r := by
  unfold handleForwardedResponse at h
  split at h
  . cases h
    exact ⟨rfl, rfl, fun hproper => ⟨fun hsome => ⟨rfl, (hproper.promise hsome).2⟩,
      hproper.getFile⟩, id⟩
  . simp only [bind, Except.bind] at h
    split at h
    . cases h
    . cases h
      exact ⟨rfl, rfl, fun hproper => ⟨fun hsome => ⟨rfl, (hproper.promise hsome).2⟩,
        hproper.getFile⟩, id⟩

theorem query_isDone (rt : RoutingTable Peer) (response : RequestObject) :
    (Query.handleResponse rt response).1.isDone = true := by
  unfold Query.handleResponse
  split
  . rfl
  . rfl

theorem query_isComplete {rt : RoutingTable Peer} (h : rt.IsComplete) (response : RequestObject) :
    (Query.handleResponse rt response).1.routingTable.IsComplete := by
  unfold Query.handleResponse
  split
  . next peer _ => exact h.setSelf peer
  . exact h

theorem toGetFile_eq_some {g : GetFile} :
    o.toGetFile = some g
      ↔
    ∃ g', o.getFile = some g' ∧ g = { g' with state := o.state, isDone := o.isDone } := by
  unfold toGetFile
  rw [Option.map_eq_some_iff]
  simp only [eq_comm]

theorem getFile_fileInfo {g : GetFile} {handled : GetFile.Handled}
    (hinfo : g.outputFile.isSome → g.fileInfo.isSome)
    (h : g.handleResponse sha256 storage response = some handled) :
    handled.getFile.outputFile.isSome → handled.getFile.fileInfo.isSome := by
  cases GetFile.handleResponse_receives h with
  | refused _ => exact hinfo
  | written w chunk haccepts =>
    intro _
    exact hinfo (by simp [GetFile.accepts_outputFile haccepts])
  | finalized w chunk info _ hsome =>
    intro _
    simp [GetFile.finish, hsome]

theorem getSelfAndSuccList_eq (rt : RoutingTable Peer) (response : RequestObject) :
    (GetSelfAndSuccList.handleResponse rt response).1.isDone = true
      ∧ (GetSelfAndSuccList.handleResponse rt response).1.routingTable = rt := by
  unfold GetSelfAndSuccList.handleResponse
  split
  . exact ⟨rfl, rfl⟩
  . exact ⟨rfl, rfl⟩

theorem getPredAndSuccList_eq (rt : RoutingTable Peer) (response : RequestObject) :
    (GetPredAndSuccList.handleResponse rt response).1.isDone = true
      ∧ (GetPredAndSuccList.handleResponse rt response).1.routingTable = rt := by
  unfold GetPredAndSuccList.handleResponse
  split
  . exact ⟨rfl, rfl⟩
  . exact ⟨rfl, rfl⟩

theorem findSuccessor_eq_some {rt : RoutingTable Peer} {h : Handled} {successor : Peer}
    (hresponse : FindSuccessor.handleResponse rt response = some (h, successor)) :
    h = ⟨rt, .done, true, []⟩ ∧ ∃ peers, response.message.peers = successor :: peers := by
  unfold FindSuccessor.handleResponse at hresponse
  split at hresponse
  . cases hresponse
  . next peers heq =>
    cases hresponse
    exact ⟨rfl, peers, heq⟩

theorem handleResponse_responds {r : Responded}
    (h : o.handleResponse sha256 node storage response = .ok r) : Responds node o r := by
  unfold handleResponse at h
  dsimp only at h
  split at h
  . next htype =>
    exact Responds.of_answer (query_isDone _ _) (by simp [htype, MessageType.resultTypes])
      (query_isComplete · response) h
  . next htype =>
    simp only [bind, Except.bind] at h
    split at h
    . cases h
    . next handled hfind =>
      rw [ofOption_eq_ok] at hfind
      rw [(findSuccessor_eq_some hfind).1] at h
      exact Responds.of_answer rfl (by simp [htype, MessageType.resultTypes]) id h
  . next htype =>
    exact Responds.of_answer rfl (by simp [htype, MessageType.resultTypes]) id h
  . next htype =>
    have hlist := getSelfAndSuccList_eq node.routingTable response
    apply Responds.of_answer hlist.1 (by simp [htype, MessageType.resultTypes]) _ h
    rw [hlist.2]
    exact id
  . next htype =>
    have hlist := getPredAndSuccList_eq node.routingTable response
    apply Responds.of_answer hlist.1 (by simp [htype, MessageType.resultTypes]) _ h
    rw [hlist.2]
    exact id
  . next htype =>
    cases h
    refine ⟨rfl, rfl, ?_, id⟩
    intro hproper
    exact ⟨fun hsome => ⟨rfl, (hproper.promise hsome).2⟩, hproper.getFile⟩
  . next htype =>
    cases h
    unfold CheckPredecessor.handleResponse
    dsimp only
    split
    . refine ⟨rfl, rfl, ?_, (·.resetPredecessor)⟩
      intro hproper
      exact ⟨hproper.promise, hproper.getFile⟩
    . refine ⟨rfl, rfl, ?_, id⟩
      intro hproper
      exact ⟨fun hsome => ⟨rfl, (hproper.promise hsome).2⟩, hproper.getFile⟩
  . next htype =>
    simp only [bind, Except.bind] at h
    split at h
    . cases h
    . next g hg =>
      split at h
      . cases h
      . next handled hhandled =>
        cases h
        rw [ofOption_eq_ok] at hg hhandled
        rw [toGetFile_eq_some] at hg
        rcases hg with ⟨g', hg', hg⟩
        refine ⟨rfl, rfl, ?_, id⟩
        intro hproper
        constructor
        . intro hsome
          have hresult := (hproper.promise hsome).2
          simp [htype, MessageType.resultTypes] at hresult
        . intro _
          refine ⟨handled.getFile, rfl, ?_⟩
          apply getFile_fileInfo _ hhandled
          rcases hproper.getFile htype with ⟨g'', hg'', hinfo⟩
          rw [hg'] at hg''
          cases hg''
          rw [hg]
          exact hinfo
  . cases h
    exact ⟨rfl, rfl, id, id⟩

theorem handleResponse_answered {r : Responded} (hrequest : response.message.isRequest = false)
    (h : o.handleResponse sha256 node storage response = .ok r) : r.object.Answered := by
  have htype := (handleResponse_responds h).type
  intro hstate
  rw [htype]
  unfold handleResponse at h
  dsimp only at h
  split at h
  . next hquery =>
    rw [answer_eq_ok] at h
    rw [h.2] at hstate ⊢
    simp only [hquery]
    dsimp only at hstate ⊢
    unfold Query.handleResponse at hstate ⊢
    split
    . next peer hpeer => exact ⟨peer, rfl⟩
    . next hpeer => simp at hstate
  . next hfind =>
    simp only [bind, Except.bind] at h
    split at h
    . cases h
    . next handled _ =>
      rw [answer_eq_ok] at h
      rw [h.2]
      simp only [hfind]
      exact ⟨handled.2, rfl⟩
  . next hlist =>
    rw [answer_eq_ok] at h
    rw [h.2]
    simp only [hlist]
    exact ⟨_, rfl⟩
  . next hlist =>
    rw [answer_eq_ok] at h
    rw [h.2]
    simp only [hlist, hrequest, Bool.false_eq_true, if_false]
    exact ⟨_, rfl⟩
  . next hlist =>
    rw [answer_eq_ok] at h
    rw [h.2]
    simp only [hlist, hrequest, Bool.false_eq_true, if_false]
    exact ⟨_, rfl⟩
  . next hnotification => simp only [hnotification]
  . next hpredecessor => simp only [hpredecessor]
  . next hfile => simp only [hfile]
  . split
    all_goals grind

structure Fails (node : Node) (o : MessageObject) (node' : Node) (o' : MessageObject) : Prop where
  type : o'.type = o.type
  request : o'.request = o.request
  getFile : o'.getFile = o.getFile
  isDone : o'.isDone = o.isDone
  state : o'.state = o.state ∨ o'.state = .failed
  promise : o'.promise = o.promise ∨ o.type ∈ MessageType.resultTypes
  table : node.routingTable.IsComplete → node'.routingTable.IsComplete

theorem handleFailed_fails {dependencies : Nat}
    (h : o.handleFailed node dependencies = .ok (node', o')) :
    Fails node o node' o' := by
  unfold handleFailed at h
  split at h
  . next htype =>
    simp only [bind, Except.bind, pure, Except.pure] at h
    split at h
    . cases h
    . next hset =>
      cases h
      rw [(setPromise_eq_ok.mp hset).2]
      exact ⟨rfl, rfl, rfl, rfl, .inl rfl, .inr (by simp [htype, MessageType.resultTypes]), id⟩
  . next htype =>
    simp only [bind, Except.bind, pure, Except.pure] at h
    split at h
    . cases h
    . next hset =>
      cases h
      rw [(setPromise_eq_ok.mp hset).2]
      exact ⟨rfl, rfl, rfl, rfl, .inl rfl, .inr (by simp [htype, MessageType.resultTypes]), id⟩
  . next htype =>
    simp only [bind, Except.bind, pure, Except.pure] at h
    split at h
    . cases h
    . next hset =>
      cases h
      rw [(setPromise_eq_ok.mp hset).2]
      exact ⟨rfl, rfl, rfl, rfl, .inr rfl, .inr (by simp [htype, MessageType.resultTypes]), id⟩
  . next htype =>
    simp only [bind, Except.bind, pure, Except.pure] at h
    split at h
    . cases h
    . next hset =>
      cases h
      rw [(setPromise_eq_ok.mp hset).2]
      exact ⟨rfl, rfl, rfl, rfl, .inr rfl, .inr (by simp [htype, MessageType.resultTypes]), id⟩
  . cases h
    exact ⟨rfl, rfl, rfl, rfl, .inr rfl, .inl rfl, (·.resetPredecessor)⟩
  . cases h
    refine ⟨rfl, rfl, rfl, rfl, .inr rfl, .inl rfl, ?_⟩
    intro htable
    dsimp only
    split
    . exact htable.popFront
    . exact htable
  . cases h
    exact ⟨rfl, rfl, rfl, rfl, .inr rfl, .inl rfl, id⟩

theorem handleFailed_of_promise (node : Node) (dependencies : Nat) (h : o.promise = none) :
    ∃ node' o', o.handleFailed node dependencies = .ok (node', o') := by
  unfold handleFailed setPromise
  split
  all_goals simp [h, bind, Except.bind, pure, Except.pure]

theorem Fails.proper (h : Fails node o node' o') (ho : o.Proper) :
    { o' with isDone := true }.Proper := by
  constructor
  . intro hsome
    refine ⟨rfl, ?_⟩
    dsimp only at hsome ⊢
    rw [h.type]
    cases h.promise with
    | inl hpromise =>
      rw [hpromise] at hsome
      exact (ho.promise hsome).2
    | inr hresult => exact hresult
  . dsimp only
    rw [h.type, h.getFile]
    exact ho.getFile

theorem Fails.proper_of_isDone (h : Fails node o node' o') (hdone : o.isDone = true)
    (ho : o.Proper) :
    o'.Proper := by
  have hproper := h.proper ho
  rw [← hdone, ← h.isDone] at hproper
  exact hproper

theorem Proper.finish (h : o.Proper) (state : MessageState) : (o.finish state).Proper :=
  ⟨fun hsome => ⟨rfl, (h.promise hsome).2⟩, h.getFile⟩

structure Checks (o o' : MessageObject) : Prop where
  type : o'.type = o.type
  request : o'.request = o.request
  proper : o.Proper → o'.Proper
  answered : o.Answered → o'.Answered
  done : o.isDone = true → o' = o

theorem checkState_checks {dependencies : Nat} {expired : Bool}
    (h : o.checkState node dependencies expired = .ok (node', o')) :
    Checks o o' ∧ (node.routingTable.IsComplete → node'.routingTable.IsComplete) := by
  unfold checkState at h
  split at h
  . cases h
    exact ⟨⟨rfl, rfl, id, id, fun _ => rfl⟩, id⟩
  . next hdone =>
    split at h
    . have hfails := handleFailed_fails h
      refine ⟨⟨hfails.type, hfails.request, fun ho =>
        hfails.proper_of_isDone rfl (ho.finish .timedOut), ?_,
        fun hisDone => absurd hisDone hdone⟩, hfails.table⟩
      intro _
      apply Answered.of_ne
      cases hfails.state with
      | inl hstate => simp [hstate, finish]
      | inr hstate => simp [hstate]
    . cases h
      exact ⟨⟨rfl, rfl, id, id, fun _ => rfl⟩, id⟩

theorem checkState_of_proper (node : Node) (dependencies : Nat) (expired : Bool) (h : o.Proper) :
    ∃ node' o', o.checkState node dependencies expired = .ok (node', o') := by
  unfold checkState
  split
  . exact ⟨_, _, rfl⟩
  . next hdone =>
    split
    . exact handleFailed_of_promise node dependencies (h.promise_eq_none (by simpa using hdone))
    . exact ⟨_, _, rfl⟩

end MessageObject

end Peerpaste
