import Peerpaste.MessageHandler.Basic
import Peerpaste.Run.Basic

/-!
This module contains who has the stabilize flag: the `Stabilize` objects that are still exchanging
lists, what clears the flag, and in which runs the flag tells whether there is such an object.
-/

namespace Peerpaste

namespace Stabilize

def inExchange (s : Stabilize) : Bool :=
  !s.isDone &&
    match s.dependencies with
    | [] => false
    | d :: _ => d.type == .getPredAndSuccList || d.type == .getSelfAndSuccList

def adopts (rt : RoutingTable Peer) (response : RequestObject) : Bool :=
  match rt.tryGetSelf, rt.tryGetSuccessor, response.message.peers with
  | some self, some successor, peer :: _ => util.between self.id peer.id successor.id
  | _, _, _ => false

def releases (s : Stabilize) (rt : RoutingTable Peer) (response : RequestObject) : Bool :=
  s.awaits .getSelfAndSuccList || (s.awaits .getPredAndSuccList && !adopts rt response)

section

variable {node : Node} {s : Stabilize} {response : RequestObject} {transactionId : String}

@[simp]
theorem createNotification_stabilizeFlag :
    (createNotification node s transactionId).1.stabilizeFlag = node.stabilizeFlag := rfl

@[simp]
theorem inExchange_createNotification :
    (createNotification node s transactionId).2.inExchange = false := by
  simp [createNotification, start, inExchange, Handled.toDependency]

@[simp]
theorem inExchange_fail : (fail node s).2.inExchange = false := by
  simp [fail, inExchange]

theorem handleGetPredAndSuccListNotify_ends (node : Node) (s : Stabilize) (transactionId : String)
    (h : adopts node.routingTable response = false) :
    let result := handleGetPredAndSuccListNotify node s response.message.peers transactionId
    result.1.stabilizeFlag = false ∧ result.2.inExchange = false := by
  cases hpeers : response.message.peers with
  | nil => simp [handleGetPredAndSuccListNotify]
  | cons peer peers =>
    simp only [handleGetPredAndSuccListNotify]
    split
    . simp [fail, inExchange]
    next self hself =>
    split
    . simp [fail, inExchange]
    next successor hsucc =>
    have hbetween : util.between self.id peer.id successor.id = false := by
      simpa [adopts, hself, hsucc, hpeers] using h
    simp [hbetween]

theorem handleGetPredAndSuccListNotify_goesOn (node : Node) (s : Stabilize) (transactionId : String)
    (h : adopts node.routingTable response = true) :
    let result := handleGetPredAndSuccListNotify node s response.message.peers transactionId
    result.1.stabilizeFlag = node.stabilizeFlag ∧ result.2.inExchange = !s.isDone := by
  unfold adopts at h
  split at h
  . next self successor peer rest hself hsucc hpeers =>
    simp [hpeers, handleGetPredAndSuccListNotify, hself, hsucc, h, start, inExchange,
      Handled.toDependency]
  . cases h

theorem handleGetSelfAndSuccListNotify_ends (node : Node) (s : Stabilize) (peers : List Peer)
    (transactionId : String) :
    let result := handleGetSelfAndSuccListNotify node s peers transactionId
    result.1.stabilizeFlag = false ∧ result.2.inExchange = false := by
  simp [handleGetSelfAndSuccListNotify]

theorem receive_inExchange (node : Node) (s : Stabilize) (transactionId : String)
    (hresponse : response.message.isRequest = false) :
    let result := s.receive node response transactionId
    if s.releases node.routingTable response then
      result.1.stabilizeFlag = false ∧ result.2.inExchange = false
    else
      result.1.stabilizeFlag = node.stabilizeFlag ∧ result.2.inExchange = s.inExchange := by
  cases hs : s.dependencies with
  | nil => simp [receive, releases, awaits, hs]
  | cons d ds =>
    cases hd : d.isOutstanding with
    | false => simp [receive, releases, awaits, hs, hd]
    | true =>
      let s' : Stabilize := { s with dependencies := answer node.routingTable d response :: ds }
      have hnotify : s.receive node response transactionId =
          handleNotification node s' (handleResponse node.routingTable d.type response).2
            transactionId := receive_eq hs hd
      rw [hnotify]
      cases htype : d.type with
      | getPredAndSuccList =>
        have hresult : handleNotification node s'
            (handleResponse node.routingTable .getPredAndSuccList response).2 transactionId
              = handleGetPredAndSuccListNotify node s' response.message.peers transactionId := by
          simp [s', handleNotification, answer, htype, handleResponse,
            GetPredAndSuccList.handleResponse, hresponse]
        rw [hresult]
        cases hadopts : adopts node.routingTable response with
        | false =>
          have := handleGetPredAndSuccListNotify_ends node s' transactionId hadopts
          simpa [releases, awaits, hs, hd, htype, hadopts] using this
        | true =>
          have := handleGetPredAndSuccListNotify_goesOn node s' transactionId hadopts
          simpa [releases, awaits, hs, hd, htype, hadopts, inExchange, s'] using this
      | getSelfAndSuccList =>
        have := handleGetSelfAndSuccListNotify_ends node s' response.message.peers transactionId
        simpa [releases, awaits, hs, hd, htype, s', handleNotification, answer, handleResponse,
          GetSelfAndSuccList.handleResponse, hresponse] using this
      | _ =>
        simp [releases, awaits, hs, htype, s', handleNotification, handleNotificationNotify, answer,
          handleResponse, Notification.handleResponse, inExchange]

theorem timeOut_inExchange (node : Node) (s : Stabilize) :
    let result := s.timeOut node
    if s.isDone then
      result = (node, s)
    else
      result.1.stabilizeFlag = false ∧ result.2.inExchange = false := by
  simp only [timeOut]
  split
  . rfl
  . simp [handleFailed, inExchange]

end

end Stabilize

theorem Join.receive_stabilizeFlag {node node' : Node} {j j' : Join} {response : RequestObject}
    {transactionId : String} (h : j.receive node response transactionId = some (node', j')) :
    node'.stabilizeFlag = node.stabilizeFlag := by
  simp only [receive] at h
  split at h
  . split at h
    . split at h
      . cases h
        rfl
      . simp only [handleQueryNotify, Option.bind_eq_bind, Option.bind_eq_some_iff] at h
        rcases h with ⟨_, _, h⟩
        cases h
        rfl
    . simp only [Option.bind_eq_bind, Option.bind_eq_some_iff] at h
      rcases h with ⟨_, _, h⟩
      cases h
      rfl
    . simp only [handleGetSuccessorListNotify, Option.bind_eq_bind, Option.bind_eq_some_iff] at h
      rcases h with ⟨_, _, h⟩
      cases h
      rfl
    . cases h
      rfl
  . cases h
    rfl

theorem Join.createRequest_stabilizeFlag (node : Node) (address port transactionId : String) :
    (Join.createRequest node address port transactionId).1.stabilizeFlag = node.stabilizeFlag := rfl

theorem Join.timeOut_stabilizeFlag (node : Node) (j : Join) :
    (j.timeOut node).1.stabilizeFlag = node.stabilizeFlag := by
  unfold timeOut handleFailed
  split
  . rfl
  . rfl

namespace CheckPredecessor

variable (node : Node) (c : CheckPredecessor)

theorem createRequest_stabilizeFlag (transactionId : String) :
    (createRequest node transactionId).1.stabilizeFlag = node.stabilizeFlag := by
  unfold createRequest
  split
  . rfl
  . rfl

theorem receive_stabilizeFlag (response : RequestObject) :
    (c.receive node response).1.stabilizeFlag = node.stabilizeFlag := by
  unfold receive handleResponse
  split
  . rfl
  . simp only
    split
    . rfl
    . rfl

theorem timeOut_stabilizeFlag : (c.timeOut node).1.stabilizeFlag = node.stabilizeFlag := by
  unfold timeOut handleFailed
  split
  . rfl
  . rfl

end CheckPredecessor

namespace MessageHandler

def InExchange (h : MessageHandler) (i : Nat) : Prop :=
  ∃ s, h.active i = some (.stabilize s) ∧ s.inExchange = true

structure Exclusive (h : MessageHandler) : Prop where
  unique : ∀ i j, h.InExchange i → h.InExchange j → i = j
  flag_iff : h.node.stabilizeFlag = true ↔ ∃ i, h.InExchange i

/--
Whoever clears the flag, by timing out or by a response that ends its exchange, is in its exchange
itself, or nobody is. A `Stabilize` that has installed its list clears the flag when the answer to
its notification stays out, and one that is done clears it when the answer of the successor comes
late.
-/
def ReleasedByOwner (h : MessageHandler) : Event → Prop
  | .response i response _ => ∀ s, h.active i = some (.stabilize s) →
    response.message.isRequest = false → s.releases h.node.routingTable response = true →
    s.inExchange = true ∨ h.node.stabilizeFlag = false
  | .timeOut i => ∀ s, h.active i = some (.stabilize s) → s.isDone = false →
    s.inExchange = true ∨ h.node.stabilizeFlag = false
  | _ => True

section Exclusive

variable {h h' : MessageHandler} {node : Node} {sha256 : String → String} {i : Nat} {e : Event}

theorem exclusive_congr (hflag : h'.node.stabilizeFlag = h.node.stabilizeFlag)
    (hactive : ∀ j, h'.InExchange j ↔ h.InExchange j) : h'.Exclusive ↔ h.Exclusive := by
  constructor
  . rintro ⟨hunique, hiff⟩
    simp only [hactive] at hunique hiff
    exact ⟨hunique, hflag ▸ hiff⟩
  . rintro ⟨hunique, hiff⟩
    simp only [← hactive] at hunique hiff
    exact ⟨hunique, hflag ▸ hiff⟩

theorem Exclusive.release_iff (hexcl : h.Exclusive) (hflag : h'.node.stabilizeFlag = false)
    (hactive : ∀ j, h'.InExchange j ↔ h.InExchange j ∧ j ≠ i) :
    h'.Exclusive ↔ (h.InExchange i ∨ h.node.stabilizeFlag = false) := by
  have hexcl' : h'.Exclusive ↔ ∀ j, ¬ h'.InExchange j := by
    constructor
    . intro hexcl' j hj
      have := hexcl'.flag_iff.mpr ⟨j, hj⟩
      simp [hflag] at this
    . intro hnone
      refine ⟨fun j _ hj => absurd hj (hnone j), ?_⟩
      simp [hflag, hnone]
  rw [hexcl']
  constructor
  . intro hnone
    cases hold : h.node.stabilizeFlag with
    | false => exact Or.inr rfl
    | true =>
      left
      rcases hexcl.flag_iff.mp hold with ⟨j, hj⟩
      by_cases hji : j = i
      . exact hji ▸ hj
      . exact absurd ((hactive j).mpr ⟨hj, hji⟩) (hnone j)
  . rintro (hi | hold) j hj
    . rw [hactive] at hj
      exact hj.2 (hexcl.unique j i hj.1 hi)
    . rw [hactive] at hj
      have := hexcl.flag_iff.mpr ⟨j, hj.1⟩
      simp [hold] at this

theorem set_inExchange {m : ActiveMessage} {j : Nat} :
    (h.set i node m).InExchange j
      ↔
    (j = i ∧ ∃ s, m = .stabilize s ∧ s.inExchange = true) ∨ (j ≠ i ∧ h.InExchange j) := by
  unfold InExchange
  rw [set_active]
  by_cases hji : j = i
  . simp [hji]
  . simp [hji]

theorem pushBack_inExchange (hfresh : h.Fresh) {m : ActiveMessage} {j : Nat} :
    (h.pushBack node m).InExchange j
      ↔
    (j = h.next ∧ ∃ s, m = .stabilize s ∧ s.inExchange = true) ∨ h.InExchange j := by
  have hnext : ¬ h.InExchange h.next := by
    rintro ⟨s, hs, _⟩
    exact absurd (hfresh _ _ hs) (Nat.lt_irrefl _)
  by_cases hj : j = h.next
  . subst hj
    simp only [hnext, or_false, true_and]
    unfold InExchange
    simp [pushBack_active]
  . simp only [hj, false_and, false_or]
    unfold InExchange
    simp [pushBack_active, hj]

theorem set_exclusive_iff {s s' : Stabilize} (hi : h.active i = some (.stabilize s))
    (hflag : node.stabilizeFlag = h.node.stabilizeFlag) (hs : s'.inExchange = s.inExchange) :
    (h.set i node (.stabilize s')).Exclusive ↔ h.Exclusive := by
  apply exclusive_congr hflag
  intro j
  rw [set_inExchange]
  by_cases hji : j = i
  . subst hji
    simp [InExchange, hi, hs]
  . simp [hji]

theorem set_exclusive_of_other {m m' : ActiveMessage} (hi : h.active i = some m)
    (hm : ∀ s, m ≠ .stabilize s) (hm' : ∀ s, m' ≠ .stabilize s)
    (hflag : node.stabilizeFlag = h.node.stabilizeFlag) :
    (h.set i node m').Exclusive ↔ h.Exclusive := by
  apply exclusive_congr hflag
  intro j
  rw [set_inExchange]
  by_cases hji : j = i
  . subst hji
    simp [InExchange, hi, hm, hm']
  . simp [hji]

theorem pushBack_exclusive_of_other (hfresh : h.Fresh) {m : ActiveMessage}
    (hm : ∀ s, m ≠ .stabilize s) (hflag : node.stabilizeFlag = h.node.stabilizeFlag) :
    (h.pushBack node m).Exclusive ↔ h.Exclusive := by
  apply exclusive_congr hflag
  intro j
  rw [pushBack_inExchange hfresh]
  simp [hm]

theorem Exclusive.set_release_iff (hexcl : h.Exclusive) {s s' : Stabilize}
    (hi : h.active i = some (.stabilize s)) (hflag : node.stabilizeFlag = false)
    (hs : s'.inExchange = false) :
    (h.set i node (.stabilize s')).Exclusive
      ↔
    (s.inExchange = true ∨ h.node.stabilizeFlag = false) := by
  have hactive : ∀ j, (h.set i node (.stabilize s')).InExchange j ↔ h.InExchange j ∧ j ≠ i := by
    intro j
    rw [set_inExchange]
    simp [hs, and_comm]
  rw [hexcl.release_iff hflag hactive]
  simp [InExchange, hi]

theorem Exclusive.createRequest (hexcl : h.Exclusive) (hfresh : h.Fresh)
    (hold : h.node.stabilizeFlag = false) (transactionId : String) :
    let result := Stabilize.createRequest { h.node with stabilizeFlag := true } transactionId
    (h.pushBack result.1 (.stabilize result.2)).Exclusive := by
  intro result
  have hnone : ∀ j, ¬ h.InExchange j := by
    intro j hj
    have := hexcl.flag_iff.mpr ⟨j, hj⟩
    simp [hold] at this
  have hactive (j : Nat) : (h.pushBack result.1 (.stabilize result.2)).InExchange j
      ↔ j = h.next ∧ result.2.inExchange = true := by
    rw [pushBack_inExchange hfresh]
    simp [hnone]
  have hflag : result.1.stabilizeFlag = result.2.inExchange := by
    simp only [result, Stabilize.createRequest]
    split
    . simp [Stabilize.fail, Stabilize.inExchange]
    . simp [Stabilize.start, Stabilize.inExchange, Handled.toDependency]
  constructor
  . intro j j' hj hj'
    rw [hactive] at hj hj'
    rw [hj.1, hj'.1]
  . simp only [hactive]
    change result.1.stabilizeFlag = true ↔ _
    simp [hflag]

theorem handleResponse_exclusive_iff (hexcl : h.Exclusive) {response : RequestObject}
    {transactionId : String} (hresponse : response.message.isRequest = false)
    (hstep : h.handleResponse i response transactionId = some h') :
    h.ReleasedByOwner (.response i response transactionId) ↔ h'.Exclusive := by
  unfold handleResponse at hstep
  split at hstep
  . cases hstep
  . next s hi =>
    cases hstep
    have hreceive := s.receive_inExchange h.node transactionId hresponse
    simp only [ReleasedByOwner, hi, Option.some.injEq, ActiveMessage.stabilize.injEq, forall_eq',
      hresponse, true_implies]
    cases hreleases : s.releases h.node.routingTable response with
    | true =>
      simp only [hreleases, ↓reduceIte] at hreceive
      rw [hexcl.set_release_iff hi hreceive.1 hreceive.2]
      simp
    | false =>
      simp only [hreleases, Bool.false_eq_true, ↓reduceIte] at hreceive
      rw [set_exclusive_iff hi hreceive.1 hreceive.2]
      simp [hexcl]
  . next j hi =>
    simp only [Option.bind_eq_bind, Option.bind_eq_some_iff, Option.pure_def, Option.some.injEq]
      at hstep
    rcases hstep with ⟨⟨node, j'⟩, hreceive, hstep⟩
    subst hstep
    rw [set_exclusive_of_other hi (by simp) (by simp) (Join.receive_stabilizeFlag hreceive)]
    simp [ReleasedByOwner, hi, hexcl]
  . next c hi =>
    cases hstep
    rw [set_exclusive_of_other hi (by simp) (by simp) (CheckPredecessor.receive_stabilizeFlag ..)]
    simp [ReleasedByOwner, hi, hexcl]

theorem timeOut_exclusive_iff (hexcl : h.Exclusive) (hstep : h.timeOut i = some h') :
    h.ReleasedByOwner (.timeOut i) ↔ h'.Exclusive := by
  unfold timeOut at hstep
  split at hstep
  . cases hstep
  . next s hi =>
    cases hstep
    have htimeOut := s.timeOut_inExchange h.node
    simp only [ReleasedByOwner, hi, Option.some.injEq, ActiveMessage.stabilize.injEq, forall_eq']
    cases hdone : s.isDone with
    | true =>
      simp only [hdone, ↓reduceIte] at htimeOut
      rw [htimeOut, set_exclusive_iff hi rfl rfl]
      simp [hexcl]
    | false =>
      simp only [hdone, Bool.false_eq_true, ↓reduceIte] at htimeOut
      rw [hexcl.set_release_iff hi htimeOut.1 htimeOut.2]
      simp
  . next j hi =>
    cases hstep
    rw [set_exclusive_of_other hi (by simp) (by simp) (Join.timeOut_stabilizeFlag ..)]
    simp [ReleasedByOwner, hi, hexcl]
  . next c hi =>
    cases hstep
    rw [set_exclusive_of_other hi (by simp) (by simp) (CheckPredecessor.timeOut_stabilizeFlag ..)]
    simp [ReleasedByOwner, hi, hexcl]

theorem step_exclusive_iff (hfresh : h.Fresh) (hexcl : h.Exclusive)
    (hstep : h.step sha256 e = some h') : h.ReleasedByOwner e ↔ h'.Exclusive := by
  cases e with
  | stabilize transactionId =>
    simp only [step, Option.ite_none_left_eq_some, Option.some.injEq] at hstep
    rw [← hstep.2]
    simp only [ReleasedByOwner, true_iff]
    exact hexcl.createRequest hfresh (by simpa using hstep.1) transactionId
  | checkPredecessor transactionId =>
    simp only [step, Option.ite_none_left_eq_some, Option.some.injEq] at hstep
    rw [← hstep.2, pushBack_exclusive_of_other hfresh (by simp)
      (CheckPredecessor.createRequest_stabilizeFlag ..)]
    simp [ReleasedByOwner, hexcl]
  | join address port transactionId =>
    simp only [step, Option.some.injEq] at hstep
    rw [← hstep, pushBack_exclusive_of_other hfresh (by simp) (Join.createRequest_stabilizeFlag ..)]
    simp [ReleasedByOwner, hexcl]
  | response i response transactionId =>
    simp only [step, Option.ite_none_left_eq_some] at hstep
    exact handleResponse_exclusive_iff hexcl (by simpa using hstep.1) hstep.2
  | timeOut i => exact timeOut_exclusive_iff hexcl hstep
  | clean i =>
    simp only [ReleasedByOwner, true_iff]
    simp only [step] at hstep
    split at hstep
    . cases hstep
    next m hi =>
    simp only [Option.ite_none_right_eq_some, Option.some.injEq] at hstep
    rcases hstep with ⟨hdone, hstep⟩
    subst hstep
    refine (exclusive_congr (h := h) ?_ ?_).mpr hexcl
    . rfl
    . intro j
      unfold InExchange
      by_cases hji : j = i
      . subst hji
        simp only [Function.update_self, reduceCtorEq, false_and, exists_false, false_iff, hi,
          Option.some.injEq, not_exists, not_and]
        rintro s rfl
        have hdone : s.isDone = true := hdone
        simp [Stabilize.inExchange, hdone]
      . simp [Function.update_of_ne hji]
  | request request transactionId =>
    simp only [step, handleRequest, Option.ite_none_right_eq_some, Option.bind_eq_bind,
      Option.bind_eq_some_iff, Option.pure_def, Option.some.injEq] at hstep
    rcases hstep with ⟨_, handled, _, hstep⟩
    subst hstep
    simp only [ReleasedByOwner, true_iff]
    refine (exclusive_congr (h := h) ?_ ?_).mpr hexcl
    . rfl
    . exact fun j => Iff.rfl

theorem releasedByOwner_of_step_eq_none (hstep : h.step sha256 e = none) : h.ReleasedByOwner e := by
  cases e with
  | response i response transactionId =>
    intro s hi hresponse
    simp [step, hresponse, handleResponse, hi] at hstep
  | timeOut i =>
    intro s hi
    simp [step, timeOut, hi] at hstep
  | stabilize _ => trivial
  | checkPredecessor _ => trivial
  | join _ _ _ => trivial
  | clean _ => trivial
  | request _ _ => trivial

theorem init_fresh (self : Peer) : (init self).Fresh := by
  intro i m hm
  cases hm

theorem init_exclusive (self : Peer) : (init self).Exclusive := by
  constructor
  . rintro i j ⟨s, hs, _⟩
    cases hs
  . simp [init, InExchange]

end Exclusive

theorem exclusive_iff (sha256 : String → String) (self : Peer) (events : List Event) :
    Run.Along (step sha256) ReleasedByOwner (init self) events
      ↔
    ∀ pre, pre <+: events → ∀ h, Run.exec (step sha256) (init self) pre = some h → h.Exclusive := by
  apply Run.along_iff_of_step _ _ (init_fresh self) (init_exclusive self)
  . intro h e _ hstep
    exact releasedByOwner_of_step_eq_none hstep
  . intro h e h' hfresh hexcl hstep
    exact ⟨hfresh.step hstep, step_exclusive_iff hfresh hexcl hstep⟩

/--
A new node gets an empty answer from itself and notifies itself, which nobody answers. When that
round times out, the next one has already started, and a third one starts beside it.
-/
theorem not_exclusive_of_late_timeOut :
    let self : Peer := ⟨"1", "10.0.0.1", "6100"⟩
    let answer : RequestObject :=
      ⟨(Message.createRequest "" [] "").generateResponse "", .peer self⟩
    ∃ h, Run.exec (step fun _ => "") (init self)
        [.stabilize "t0", .response 0 answer "t1", .stabilize "t2", .timeOut 0, .stabilize "t3"]
          = some h
      ∧ h.InExchange 1 ∧ h.InExchange 2 ∧ ¬ h.Exclusive := by
  intro self answer
  let request (id : String) : RequestObject :=
    ⟨Message.createRequest "get_predecessor_and_succ_list" [] id, .peer self⟩
  let waiting (id : String) : Stabilize :=
    { dependencies := [.waiting .getPredAndSuccList (request id)] }
  refine ⟨_, rfl, ?_, ?_, ?_⟩
  . exact ⟨waiting "t2", by decide, by decide⟩
  . exact ⟨waiting "t3", by decide, by decide⟩
  . intro hexcl
    have := hexcl.unique 1 2 ⟨waiting "t2", by decide, by decide⟩
      ⟨waiting "t3", by decide, by decide⟩
    omega

end MessageHandler

end Peerpaste
