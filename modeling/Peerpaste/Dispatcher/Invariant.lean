import Peerpaste.Dispatcher.ActiveObject
import Peerpaste.Messages.Factory

/-!
This module contains the invariant of a node with its message objects, which every step of its
threads keeps.
-/

namespace Peerpaste

namespace MessageDispatcher

structure Frame (d d' : MessageDispatcher) : Prop where
  activeMessages : d'.activeMessages = d.activeMessages
  next_le : d.next ≤ d'.next
  taken : d'.taken = d.taken
  table : d.routingTable.IsComplete → d'.routingTable.IsComplete
  activeHandlers : ∀ h ∈ d'.activeHandlers, h ∈ d.activeHandlers ∨ h.handler = .handleResponse

def Replaces (d : MessageDispatcher) (i : Nat) (o : ActiveObject) : Prop :=
  d.next ≤ i ∨ ∃ o₀, d.activeMessages i = some o₀ ∧ o.request = o₀.request

structure Sets (d d' : MessageDispatcher) (i : Nat) (o : ActiveObject) : Prop where
  activeMessages : d'.activeMessages = Function.update d.activeMessages i (some o)
  request : d.Replaces i o
  lt_next : i < d'.next
  next_le : d.next ≤ d'.next
  taken : d'.taken = d.taken
  table : d.routingTable.IsComplete → d'.routingTable.IsComplete
  activeHandlers : ∀ h ∈ d'.activeHandlers, h ∈ d.activeHandlers ∨ h.handler = .handleResponse
    ∨ h.parent = ⟨i, none⟩ ∧ o.request.isSome

def Forwards (d : MessageDispatcher) (h : HandlerObject HandlerFunction Address) : Prop :=
  h.handler = .handleForwardedResponse →
    h.parent.object < d.next ∧ h.parent.dependency = none
      ∧ ∀ o, d.activeMessages h.parent.object = some o → o.request.isSome

structure Valid (d : MessageDispatcher) : Prop where
  table : d.routingTable.IsComplete
  object : ∀ i o, d.activeMessages i = some o → i < d.next ∧ o.Proper d.next
  handler : ∀ h ∈ d.activeHandlers, d.Forwards h
  taken : ∀ h response, d.taken = some (.response h response) →
    d.Forwards h ∧ response.message.isRequest = false

variable {d d' d'' : MessageDispatcher} {i : Nat} {o : ActiveObject}

theorem Frame.refl (d : MessageDispatcher) : Frame d d :=
  ⟨rfl, Nat.le_refl _, rfl, id, fun _ hmem => .inl hmem⟩

theorem Frame.trans (h : Frame d d') (h' : Frame d' d'') : Frame d d'' := by
  refine ⟨h'.activeMessages.trans h.activeMessages, h.next_le.trans h'.next_le,
    h'.taken.trans h.taken, fun htable => h'.table (h.table htable), ?_⟩
  intro handler hmem
  cases h'.activeHandlers handler hmem with
  | inl hmem => exact h.activeHandlers handler hmem
  | inr hresponse => exact .inr hresponse

theorem Frame.node (d : MessageDispatcher) (node : Node) (storage : StaticStorage) (n : Nat)
    (hle : d.next ≤ n) (htable : d.routingTable.IsComplete → node.routingTable.IsComplete) :
    Frame d { d with node := node, storage := storage, next := n } :=
  ⟨rfl, hle, rfl, htable, fun _ hmem => .inl hmem⟩

theorem mem_foldl_insert {requests : List RequestObject}
    {handlers : ActiveHandlers HandlerFunction Address}
    {handler : HandlerFunction} {parent : Address} {isPersistent : Bool}
    {h : HandlerObject HandlerFunction Address}
    (hmem : h ∈ requests.foldl
      (fun handlers request =>
        handlers.insert ⟨request.message.header.transactionId, handler, parent,
          isPersistent⟩) handlers) :
    h ∈ handlers ∨ h.handler = handler ∧ h.parent = parent := by
  induction requests generalizing handlers with
  | nil => exact .inl hmem
  | cons request requests ih =>
    cases ih hmem with
    | inr hnew => exact .inr hnew
    | inl hmem =>
      cases ConcurrentSet.mem_of_mem_insert hmem with
      | inl heq => exact .inr (heq ▸ ⟨rfl, rfl⟩)
      | inr hmem => exact .inl hmem

theorem Frame.register (d : MessageDispatcher) (requests : List RequestObject) (parent : Address)
    (isPersistent : Bool) : Frame d (d.register requests .handleResponse parent isPersistent) := by
  refine ⟨rfl, Nat.le_refl _, rfl, id, ?_⟩
  intro h hmem
  cases mem_foldl_insert hmem with
  | inl hmem => exact .inl hmem
  | inr hnew => exact .inr hnew.1

theorem Frame.set (h : Frame d d') (hrequest : d.Replaces i o) (hlt : i < d'.next) :
    Sets d (d'.set i o) i o := by
  refine ⟨?_, hrequest, hlt, h.next_le, h.taken, h.table, ?_⟩
  . rw [← h.activeMessages]
    rfl
  . intro handler hmem
    cases h.activeHandlers handler hmem with
    | inl hmem => exact .inl hmem
    | inr hresponse => exact .inr (.inl hresponse)

theorem Frame.forward (h : Frame d d') (hrequest : d.Replaces i o) (hlt : i < d'.next)
    (hsome : o.request.isSome)
    (requests : List RequestObject) :
    Sets d ((d'.register requests .handleForwardedResponse ⟨i, none⟩).set i o) i o := by
  -- the handler of a forwarded request is the one of the object that has got the request
  refine ⟨?_, hrequest, hlt, h.next_le, h.taken, h.table, ?_⟩
  . rw [← h.activeMessages]
    rfl
  . intro handler hmem
    cases mem_foldl_insert hmem with
    | inr hnew => exact .inr (.inr ⟨hnew.2, hsome⟩)
    | inl hmem =>
      cases h.activeHandlers handler hmem with
      | inl hmem => exact .inl hmem
      | inr hresponse => exact .inr (.inl hresponse)

theorem Sets.sweep (h : Sets d d' i o) : Sets d d'.sweep i o := by
  refine ⟨h.activeMessages, h.request, h.lt_next, h.next_le, h.taken, h.table, ?_⟩
  intro handler hmem
  exact h.activeHandlers handler (ConcurrentSet.mem_eraseIf.mp hmem).1

theorem Sets.next (h : Sets d d' i o) (n : Nat) (hle : d'.next ≤ n) :
    Sets d { d' with next := n } i o :=
  ⟨h.activeMessages, h.request, Nat.lt_of_lt_of_le h.lt_next hle, h.next_le.trans hle,
    h.taken, h.table, h.activeHandlers⟩

theorem Sets.valid (h : Sets d d' i o) (hd : Valid d) (ho : o.Proper d'.next) : Valid d' := by
  have hforwards : ∀ handler, d.Forwards handler → d'.Forwards handler := by
    intro handler hhandler hforwarded
    rcases hhandler hforwarded with ⟨hlt, hdependency, hobject⟩
    refine ⟨Nat.lt_of_lt_of_le hlt h.next_le, hdependency, ?_⟩
    intro o' ho'
    rw [h.activeMessages, Function.update_apply] at ho'
    split at ho'
    . next heq =>
      cases ho'
      rcases h.request with hnew | ⟨o₀, ho₀, hsame⟩
      . omega
      . rw [hsame]
        exact hobject o₀ (heq ▸ ho₀)
    . exact hobject o' ho'
  refine ⟨h.table hd.table, ?_, ?_, ?_⟩
  . intro j o' hj
    rw [h.activeMessages, Function.update_apply] at hj
    split at hj
    . next heq =>
      cases hj
      exact ⟨heq ▸ h.lt_next, ho⟩
    . have hobject := hd.object j o' hj
      exact ⟨Nat.lt_of_lt_of_le hobject.1 h.next_le, hobject.2.mono h.next_le⟩
  . intro handler hmem
    rcases h.activeHandlers handler hmem with hmem | hresponse | ⟨hparent, hsome⟩
    . exact hforwards handler (hd.handler handler hmem)
    . intro hforwarded
      rw [hresponse] at hforwarded
      cases hforwarded
    . intro _
      rw [hparent]
      refine ⟨h.lt_next, rfl, ?_⟩
      intro o' ho'
      rw [h.activeMessages, Function.update_self] at ho'
      cases ho'
      exact hsome
  . intro handler response htaken
    rw [h.taken] at htaken
    exact ⟨hforwards handler (hd.taken handler response htaken).1,
      (hd.taken handler response htaken).2⟩

theorem Sets.node (h : Sets d d' i o) (node : Node)
    (htable : d'.routingTable.IsComplete → node.routingTable.IsComplete) :
    Sets d { d' with node := node } i o :=
  ⟨h.activeMessages, h.request, h.lt_next, h.next_le, h.taken, fun hd => htable (h.table hd),
    h.activeHandlers⟩

theorem Frame.withTable (h : Frame d d') {rt : RoutingTable Peer}
    (htable : d'.routingTable.IsComplete → rt.IsComplete) : Frame d (d'.withTable rt) :=
  h.trans (Frame.node d' { d'.node with routingTable := rt } d'.storage d'.next
    (Nat.le_refl _) htable)

theorem Frame.resetFlag (h : Frame d d') : Frame d (Stabilize.resetFlag d') :=
  h.trans (Frame.node d' { d'.node with stabilizeFlag := false } d'.storage d'.next
    (Nat.le_refl _) id)

theorem Frame.push (h : Frame d d') (requests : List RequestObject) : Frame d (d'.push requests) :=
  h.trans (Frame.node d' { d'.node with sendQueue := d'.node.sendQueue ++ requests }
    d'.storage d'.next (Nat.le_refl _) id)

theorem Frame.requestDestruction (h : Frame d d') (hrequest : d.Replaces i o) (hlt : i < d'.next)
    (state : MessageState) : Sets d (d'.requestDestruction i o state) i (o.finish state) := by
  have hset : Sets d (d'.set i (o.finish state)) i (o.finish state) := h.set hrequest hlt
  exact hset.sweep

theorem Frame.start (h : Frame d d') (hrequest : d.Replaces i o) (hlt : i < d'.next)
    (type : MessageType) (handled : Handled) :
    Sets d (d'.start i o type handled) i
      { o with
        dependencies :=
          { type := type, state := handled.state, isDone := handled.isDone, number := d'.next
            isEssential := true } :: o.dependencies } := by
  have hregister := h.trans (Frame.register d' handled.notified ⟨i, some d'.next⟩ false)
  unfold MessageDispatcher.start
  apply Sets.next _ _ (Nat.le_succ _)
  exact hregister.set hrequest hlt

def Advances (d : MessageDispatcher) (n : Nat) (d' : MessageDispatcher) (i : Nat)
    (o : ActiveObject) : Prop :=
  ∃ o', o.Proceeds n o' d'.next ∧ Sets d d' i o'

theorem Frame.advances_set (h : Frame d d') (hrequest : d.Replaces i o) (hlt : i < d'.next) :
    Advances d d'.next (d'.set i o) i o :=
  ⟨o, .kept, h.set hrequest hlt⟩

theorem Frame.advances_requestDestruction (h : Frame d d') (hrequest : d.Replaces i o)
    (hlt : i < d'.next)
    (state : MessageState) : Advances d d'.next (d'.requestDestruction i o state) i o :=
  ⟨_, .finished state, h.requestDestruction hrequest hlt state⟩

theorem Frame.advances_start (h : Frame d d') (hrequest : d.Replaces i o) (hlt : i < d'.next)
    {dependencies : List DependencyObject}
    (hsuffix : dependencies = o.dependencies ∨ dependencies = [])
    (hjoin : o.type = .join → dependencies = []) {type : MessageType}
    (htype : type ∈ o.type.dependencyTypes)
    (hfile : type ≠ .getFile) {handled : Handled} (hstate : handled.state ≠ .done)
    (hdone : handled.isDone = false) :
    Advances d d'.next (d'.start i { o with dependencies := dependencies } type handled) i o := by
  have hstart := h.start (o := { o with dependencies := dependencies }) hrequest hlt type handled
  exact ⟨_, .started _ dependencies hsuffix hjoin htype rfl hstate hdone rfl hfile, hstart⟩

section Notification

variable {ids : Nat → String} {d₀ : MessageDispatcher}

theorem notification_createRequest (rt : RoutingTable Peer) (transactionId : String) :
    (Notification.createRequest rt transactionId).state ≠ .done
      ∧ (Notification.createRequest rt transactionId).isDone = false := by
  unfold Notification.createRequest
  split
  . simp
  . split
    . simp
    . split
      . simp
      . simp

theorem Join.handleNotification_advances (h : Frame d₀ d) (hrequest : d₀.Replaces i o)
    (hlt : i < d.next) (htype : o.type = .join) (hok : Join.handleNotification d i o ids = .ok d') :
    Advances d₀ d.next d' i o := by
  unfold Join.handleNotification at hok
  split at hok
  . cases hok
  . split at hok
    . cases hok
      exact h.advances_requestDestruction hrequest hlt .failed
    . split at hok
      . cases hok
        exact h.advances_start hrequest hlt (.inr rfl) (fun _ => rfl)
          (by simp [htype, MessageType.dependencyTypes]) (by decide) (by simp) rfl
      . next successor _ _ =>
        cases hok
        have hframe : Frame d₀ (d.withTable (d.routingTable.setSuccessor successor)) :=
          h.withTable (·.setSuccessor successor)
        exact hframe.advances_start hrequest hlt (.inr rfl) (fun _ => rfl)
          (by simp [htype, MessageType.dependencyTypes]) (by decide)
          (by simp [GetSuccessorList.createRequest]) rfl
      . next peers _ _ =>
        simp only [Join.handleGetSuccessorListNotify, bind, Except.bind] at hok
        split at hok
        . cases hok
        . next rt hrt =>
          cases hok
          rw [MessageObject.ofOption_eq_ok] at hrt
          have hframe : Frame d₀ (d.withTable rt) := by
            apply h.withTable
            intro htable
            rcases htable.replaceAfterSuccessor peers with ⟨rt', hrt', hcomplete⟩
            rw [hrt, Option.some.injEq] at hrt'
            exact hrt' ▸ hcomplete
          exact hframe.advances_requestDestruction hrequest hlt .done
      . cases hok
      . cases hok
      . cases hok
      . cases hok
        exact h.advances_set hrequest hlt

theorem Stabilize.fail_advances (h : Frame d₀ d) (hrequest : d₀.Replaces i o) (hlt : i < d.next) :
    Advances d₀ d.next (Stabilize.fail d i o) i o :=
  h.resetFlag.advances_requestDestruction hrequest hlt .failed

theorem Stabilize.createNotification_advances (h : Frame d₀ d) (hrequest : d₀.Replaces i o)
    (hlt : i < d.next)
    (htype : o.type = .stabilize) :
    Advances d₀ d.next (Stabilize.createNotification d i o ids) i o := by
  have hcreated := notification_createRequest d.routingTable (ids d.next)
  exact h.advances_start hrequest hlt (.inl rfl) (by simp [htype])
    (by simp [htype, MessageType.dependencyTypes]) (by decide) hcreated.1 hcreated.2

theorem Advances.resetFlag (h : Advances d₀ n d' i o) :
    Advances d₀ n (Stabilize.resetFlag d') i o := by
  rcases h with ⟨o', hproceeds, hsets⟩
  exact ⟨o', hproceeds, hsets.node _ id⟩

theorem Stabilize.handleGetPredAndSuccListNotify_advances (h : Frame d₀ d)
    (hrequest : d₀.Replaces i o) (hlt : i < d.next) (htype : o.type = .stabilize)
    (predAndSuccList : List Peer) :
    Advances d₀ d.next (Stabilize.handleGetPredAndSuccListNotify d i o predAndSuccList ids) i
      o := by
  unfold Stabilize.handleGetPredAndSuccListNotify
  split
  . exact createNotification_advances (h.withTable (·.popFront)).resetFlag hrequest hlt htype
  . next successorsPredecessor rest =>
    split
    . exact fail_advances h hrequest hlt
    . next self _ =>
      dsimp only
      split
      . exact fail_advances h hrequest hlt
      . next successor _ =>
        have hframe : ∀ l, Frame d₀ (d.withTable (d.routingTable.replaceSuccessorList l)) :=
          fun l => h.withTable (·.replaceSuccessorList l)
        split
        . exact (hframe _).advances_start hrequest hlt (.inl rfl) (by simp [htype])
            (by simp [htype, MessageType.dependencyTypes]) (by decide)
            (by simp [GetSelfAndSuccList.createRequest]) rfl
        . exact (createNotification_advances (hframe _) hrequest hlt htype).resetFlag

theorem Stabilize.handleNotification_advances (h : Frame d₀ d) (hrequest : d₀.Replaces i o)
    (hlt : i < d.next)
    (htype : o.type = .stabilize) (hok : Stabilize.handleNotification d i o ids = .ok d') :
    Advances d₀ d.next d' i o := by
  unfold Stabilize.handleNotification at hok
  split at hok
  . cases hok
  . split at hok
    . cases hok
      exact fail_advances h hrequest hlt
    . split at hok
      . cases hok
        exact handleGetPredAndSuccListNotify_advances h hrequest hlt htype _
      . next peers _ _ =>
        cases hok
        have hframe : Frame d₀ (d.withTable (d.routingTable.replaceSuccessorList peers)) :=
          h.withTable (·.replaceSuccessorList peers)
        exact createNotification_advances hframe.resetFlag hrequest hlt htype
      . cases hok
      . cases hok
      . cases hok
        exact h.advances_requestDestruction hrequest hlt .done
      . cases hok
        exact h.advances_set hrequest hlt

theorem handleNotification_advances (h : Frame d₀ d) (hrequest : d₀.Replaces i o) (hlt : i < d.next)
    (hok : d.handleNotification i o ids = .ok d') : Advances d₀ d.next d' i o := by
  unfold handleNotification at hok
  split at hok
  . next htype => exact Join.handleNotification_advances h hrequest hlt htype hok
  . next htype => exact Stabilize.handleNotification_advances h hrequest hlt htype hok
  . cases hok
    unfold BroadcastFilelist.handleNotification
    split
    . exact h.advances_requestDestruction hrequest hlt .done
    . exact h.advances_set hrequest hlt
  . cases hok
    exact h.advances_set hrequest hlt

theorem Join.handleNotification_of_proper (htable : d.routingTable.IsComplete) (ho : o.Proper n)
    (hne : o.dependencies ≠ []) : ∃ d', Join.handleNotification d i o ids = .ok d' := by
  unfold Join.handleNotification
  split
  . next hnil => exact absurd hnil hne
  . next dep _ hdep =>
    split
    . exact ⟨_, rfl⟩
    . next hstate =>
      have hanswered := (ho.dependency dep (by simp [hdep])).2 (by simp at hstate; exact hstate.2)
      split
      . exact ⟨_, rfl⟩
      . exact ⟨_, rfl⟩
      . next peers _ _ =>
        rcases htable.replaceAfterSuccessor peers with ⟨rt, hrt, _⟩
        unfold Join.handleGetSuccessorListNotify
        rw [hrt]
        exact ⟨_, rfl⟩
      . next htype hpromise =>
        rw [htype] at hanswered
        rcases hanswered with ⟨peer, hpeer⟩
        exact (hpromise peer hpeer).elim
      . next htype hpromise =>
        rw [htype] at hanswered
        rcases hanswered with ⟨peer, hpeer⟩
        exact (hpromise peer hpeer).elim
      . next htype hpromise =>
        rw [htype] at hanswered
        rcases hanswered with ⟨peers, hpeers⟩
        exact (hpromise peers hpeers).elim
      . exact ⟨_, rfl⟩

theorem Stabilize.handleNotification_of_proper (ho : o.Proper n) (hne : o.dependencies ≠ []) :
    ∃ d', Stabilize.handleNotification d i o ids = .ok d' := by
  unfold Stabilize.handleNotification
  split
  . next hnil => exact absurd hnil hne
  . next dep _ hdep =>
    split
    . exact ⟨_, rfl⟩
    . next hstate =>
      have hanswered := (ho.dependency dep (by simp [hdep])).2 (by simp at hstate; exact hstate.2)
      split
      . exact ⟨_, rfl⟩
      . exact ⟨_, rfl⟩
      . next htype hpromise =>
        rw [htype] at hanswered
        rcases hanswered with ⟨peers, hpeers⟩
        exact (hpromise peers hpeers).elim
      . next htype hpromise =>
        rw [htype] at hanswered
        rcases hanswered with ⟨peers, hpeers⟩
        exact (hpromise peers hpeers).elim
      . exact ⟨_, rfl⟩
      . exact ⟨_, rfl⟩

theorem handleNotification_of_proper (htable : d.routingTable.IsComplete) (ho : o.Proper n)
    (hne : o.dependencies ≠ []) : ∃ d', d.handleNotification i o ids = .ok d' := by
  unfold handleNotification
  split
  . exact Join.handleNotification_of_proper htable ho hne
  . exact Stabilize.handleNotification_of_proper ho hne
  . exact ⟨_, rfl⟩
  . exact ⟨_, rfl⟩

end Notification

def Creates (d d' : MessageDispatcher) : Prop :=
  ∃ o, Sets d d' d.next o ∧ o.Proper d'.next

section Creation

variable {ids : Nat → String} {type : MessageType} {request : RequestObject}

theorem Frame.bump (d : MessageDispatcher) : Frame d { d with next := d.next + 1 } :=
  Frame.node d d.node d.storage (d.next + 1) (Nat.le_succ _) id

theorem proper_nil (hmessage : o.toMessageObject.Proper) (hnil : o.dependencies = [])
    (htype : o.type ≠ .join)
    (n : Nat) : o.Proper n := by
  refine ⟨hmessage, ?_, ?_, ?_, fun hjoin => absurd hjoin htype⟩
  . simp [hnil]
  . simp [hnil]
  . simp [hnil]

theorem Frame.creates_start (h : Frame d d') (hlt : d.next < d'.next)
    (hmessage : o.toMessageObject.Proper)
    (hnil : o.dependencies = []) (htype : type ∈ o.type.dependencyTypes) (hfile : type ≠ .getFile)
    {handled : Handled} (hstate : handled.state ≠ .done) :
    Creates d (d'.start d.next o type handled) := by
  refine ⟨_, h.start (.inl (Nat.le_refl _)) hlt type handled,
    ⟨hmessage.promise, hmessage.getFile⟩, ?_, ?_, ?_, ?_⟩
  . intro dep hdep
    rw [hnil, List.mem_singleton] at hdep
    rw [hdep]
    exact ⟨.of_promise rfl hfile, .of_ne hstate⟩
  . intro dep hdep
    rw [hnil, List.mem_singleton] at hdep
    rw [hdep]
    exact htype
  . intro dep hdep
    rw [hnil, List.mem_singleton] at hdep
    rw [hdep]
    exact Nat.lt_succ_self _
  . intro _
    exact ⟨_, by rw [hnil]⟩

theorem Frame.creates_requestDestruction (h : Frame d d') (hlt : d.next < d'.next)
    (hpromise : o.promise = none)
    (hnil : o.dependencies = []) (hjoin : o.type ≠ .join) (hfile : o.type ≠ .getFile)
    (state : MessageState) :
    Creates d (d'.requestDestruction d.next o state) := by
  refine ⟨_, h.requestDestruction (.inl (Nat.le_refl _)) hlt state, ?_⟩
  exact proper_nil (o := o.finish state) (.of_promise hpromise hfile) hnil hjoin _

theorem Join.createRequest_creates (address port : String) :
    Creates d (Join.createRequest d address port ids) := by
  apply (Frame.bump d).creates_start (Nat.lt_succ_self _)
    (.of_promise rfl (by simp)) rfl _ (by decide)
  . simp [Query.createRequest]
  . simp [MessageType.dependencyTypes]

theorem Stabilize.createRequest_creates : Creates d (Stabilize.createRequest d ids) := by
  have hframe : Frame d { d with
    next := d.next + 1, node := { d.node with stabilizeFlag := true } } :=
    Frame.node d { d.node with stabilizeFlag := true } d.storage (d.next + 1) (Nat.le_succ _) id
  unfold Stabilize.createRequest
  dsimp only
  split
  . exact hframe.resetFlag.creates_requestDestruction (Nat.lt_succ_self _) rfl rfl (by simp)
      (by simp) .failed
  . apply hframe.creates_start (Nat.lt_succ_self _) (.of_promise rfl (by simp)) rfl _ (by decide)
    . simp [GetPredAndSuccList.createRequest]
    . simp [MessageType.dependencyTypes]

theorem BroadcastFilelist.createRequest_creates :
    Creates d (BroadcastFilelist.createRequest d ids) := by
  have hframe := Frame.bump d
  unfold BroadcastFilelist.createRequest
  dsimp only
  split
  . exact hframe.creates_requestDestruction (Nat.lt_succ_self _) rfl rfl (by simp) (by simp) .failed
  . split
    . exact hframe.creates_requestDestruction (Nat.lt_succ_self _) rfl rfl (by simp)
        (by simp) .failed
    . exact (hframe.push _).creates_requestDestruction (Nat.lt_succ_self _) rfl rfl (by simp)
        (by simp) .done

theorem CheckPredecessor.createRequest_creates :
    Creates d (CheckPredecessor.createRequest d ids) := by
  have hframe := Frame.bump d
  unfold CheckPredecessor.createRequest
  dsimp only
  split
  . exact hframe.creates_requestDestruction (Nat.lt_succ_self _) rfl rfl (by simp) (by simp) .failed
  . next target _ =>
    have hregister := hframe.trans (Frame.register _
      [⟨Message.createRequest "check_predecessor" [] (ids d.next), .peer target⟩]
        ⟨d.next, none⟩ false)
    refine ⟨{ type := .checkPredecessor }, ?_, ?_⟩
    . exact (hregister.set (.inl (Nat.le_refl _)) (Nat.lt_succ_self _)).node _ id
    . exact proper_nil (.of_promise rfl (by simp)) rfl (by simp) _

theorem handled_creates (h : Frame d d') (hlt : d.next < d'.next) (hsome : o.request.isSome)
    (hnil : o.dependencies = []) (hjoin : o.type ≠ .join) (hfile : o.type ≠ .getFile)
    {handled : Handled}
    (hpromise : o.promise.isSome → handled.isDone = true ∧ o.type ∈ MessageType.resultTypes)
    (htable : d'.routingTable.IsComplete → handled.routingTable.IsComplete) :
    Creates d (d'.handled d.next o handled) := by
  have hframe := h.withTable htable
  have hnew : d.Replaces d.next { o with state := handled.state, isDone := handled.isDone } :=
    .inl (Nat.le_refl _)
  refine ⟨{ o with state := handled.state, isDone := handled.isDone }, ?_, ?_⟩
  . unfold MessageDispatcher.handled
    dsimp only
    split
    . exact ((hframe.push handled.notified).set hnew hlt).sweep
    . exact hframe.forward hnew hlt hsome handled.notified
  . apply proper_nil (o := { o with state := handled.state, isDone := handled.isDone }) _ hnil hjoin
    exact ⟨hpromise, fun hget => absurd hget hfile⟩

theorem writeFile_outputFile (storage : StaticStorage) (g : GetFile) (failed : Bool)
    (transactionId : String) :
    (g.writeFile storage failed transactionId).getFile.outputFile = g.outputFile := by
  unfold GetFile.writeFile
  cases failed
  all_goals
    dsimp only [Bool.false_eq_true, if_false, if_true]
    split
    . split
      . rfl
      . split
        . rfl
        . rfl
    . rfl

theorem getFile_outputFile (storage : StaticStorage) (request : RequestObject)
    (transactionId : String) {handled : GetFile.Handled}
    (h : (GetFile.ofRequest request).handleRequest storage transactionId = some handled) :
    handled.getFile.outputFile = none := by
  unfold GetFile.handleRequest at h
  split at h
  . cases h
    rfl
  . split at h
    . cases h
    . split at h
      . cases h
        rfl
      . split at h
        . cases h
          rfl
        . cases h
          apply writeFile_outputFile

theorem createRequest_fileInfo (storage : StaticStorage) (target : Peer) (file : FileInfo)
    (transactionId : String) :
    ((GetFile.ofFileInfo target file).createRequest storage transactionId).getFile.fileInfo.isSome
      := by
  unfold GetFile.createRequest GetFile.ofFileInfo
  dsimp only
  split
  . rfl
  . rfl

structure Requests (d : MessageDispatcher) (s : MessageDispatcher × List DependencyObject) :
    Prop where
  frame : Frame d s.1
  next_lt : d.next < s.1.next
  dependency : ∀ dep ∈ s.2, dep.Proper ∧ dep.type = .getFile ∧ dep.number < s.1.next

theorem Requests.requestFile {s : MessageDispatcher × List DependencyObject} (h : Requests d s)
    (target : Peer)
    (file : FileInfo) : Requests d (BroadcastFilelist.requestFile i target ids s file) := by
  unfold BroadcastFilelist.requestFile
  dsimp only
  split
  . exact h
  . have hframe := h.frame.trans (Frame.node s.1 s.1.node
      ((GetFile.ofFileInfo target file).createRequest s.1.storage (ids s.1.next)).storage
      (s.1.next + 1)
      (Nat.le_succ _) id)
    refine ⟨hframe.trans (Frame.register _ _ ⟨i, some s.1.next⟩ true),
      Nat.lt_succ_of_lt h.next_lt, ?_⟩
    intro dep hdep
    cases List.mem_append.mp hdep with
    | inl hdep =>
      have hdependency := h.dependency dep hdep
      exact ⟨hdependency.1, hdependency.2.1, Nat.lt_succ_of_lt hdependency.2.2⟩
    | inr hdep =>
      rw [List.mem_singleton] at hdep
      rw [hdep]
      refine ⟨⟨by simp, ?_⟩, rfl, Nat.lt_succ_self _⟩
      intro _
      exact ⟨_, rfl, fun _ => createRequest_fileInfo s.1.storage target file _⟩

theorem Requests.foldl {s : MessageDispatcher × List DependencyObject} (h : Requests d s)
    (target : Peer) (files : List FileInfo) :
    Requests d (files.foldl (BroadcastFilelist.requestFile i target ids) s) := by
  induction files generalizing s with
  | nil => exact h
  | cons file files ih => exact ih (h.requestFile target file)

theorem BroadcastFilelist.conclude_creates {s : MessageDispatcher × List DependencyObject}
    (h : Requests d s)
    (hframe : Frame d d') (hle : s.1.next ≤ d'.next) (htype : o.type = .broadcastFilelist)
    (hpromise : o.promise = none) (hdependencies : o.dependencies = s.2) (state : MessageState) :
    Creates d (BroadcastFilelist.conclude d' d.next o state) := by
  have hlt := Nat.lt_of_lt_of_le h.next_lt hle
  unfold BroadcastFilelist.conclude
  split
  . next hnil =>
    exact hframe.creates_requestDestruction hlt hpromise hnil (by simp [htype])
      (by simp [htype]) state
  . refine ⟨_, hframe.set (.inl (Nat.le_refl _)) hlt, ?_⟩
    refine ⟨.of_promise hpromise (by simp [htype]), ?_, ?_, ?_, by simp [htype]⟩
    . intro dep hdep
      have hdependency := h.dependency dep (hdependencies ▸ hdep)
      refine ⟨hdependency.1, ?_⟩
      intro _
      rw [hdependency.2.1]
      trivial
    . intro dep hdep
      have hdependency := h.dependency dep (hdependencies ▸ hdep)
      simp [hdependency.2.1, htype, MessageType.dependencyTypes]
    . intro dep hdep
      exact Nat.lt_of_lt_of_le (h.dependency dep (hdependencies ▸ hdep)).2.2 hle

theorem BroadcastFilelist.handleRequest_creates :
    Creates d (BroadcastFilelist.handleRequest d request ids) := by
  have hframe := Frame.bump d
  unfold BroadcastFilelist.handleRequest
  dsimp only
  split
  . exact hframe.creates_requestDestruction (Nat.lt_succ_self _) rfl rfl (by simp) (by simp) .failed
  . next self _ =>
    split
    . exact hframe.creates_requestDestruction (Nat.lt_succ_self _) rfl rfl (by simp) (by simp) .done
    . have hrequests : Requests d ({ d with next := d.next + 1 }, []) :=
        ⟨hframe, Nat.lt_succ_self _, by simp⟩
      have hall : Requests d (request.message.files.foldl
          (BroadcastFilelist.requestFile d.next ((request.message.peers ++ [self]).headD self) ids)
          ({ d with next := d.next + 1 }, [])) := hrequests.foldl _ _
      split
      . exact conclude_creates hall hall.frame (Nat.le_refl _) rfl rfl rfl .failed
      . exact conclude_creates hall (hall.frame.push _) (Nat.le_refl _) rfl rfl rfl .done

theorem notification_isComplete {rt : RoutingTable Peer} (h : rt.IsComplete)
    (request : RequestObject) (transactionId : String) :
    (Notification.handleRequest rt request transactionId).routingTable.IsComplete := by
  have htable : (Notification.handleRequest rt request transactionId).routingTable = rt
      ∨ ∃ predecessor, (Notification.handleRequest rt request transactionId).routingTable
          = rt.setPredecessor predecessor :=
    MessageFactory.notification_routingTable
  rcases htable with hsame | ⟨predecessor, hset⟩
  . rw [hsame]
    exact h
  . rw [hset]
    exact h.setPredecessor predecessor

theorem getPredAndSuccList_isDone (rt : RoutingTable Peer) (request : RequestObject)
    (transactionId : String) :
    (GetPredAndSuccList.handleRequest rt request transactionId).isDone = true := by
  unfold GetPredAndSuccList.handleRequest
  split
  . rfl
  . rfl

theorem handleRequest_creates {sha256 : String → String}
    (hok : d.handleRequest sha256 type request ids = .ok d') : d' = d ∨ Creates d d' := by
  -- no object is made for a type that no request has
  have hframe := Frame.bump d
  have hlt := Nat.lt_succ_self d.next
  unfold MessageDispatcher.handleRequest at hok
  dsimp only at hok
  split at hok
  . cases hok
    right
    exact handled_creates hframe hlt rfl rfl (by simp) (by simp) (by simp)
      (notification_isComplete · request (ids d.next))
  . cases hok
    right
    exact handled_creates hframe hlt rfl rfl (by simp) (by simp) (by simp) id
  . simp only [bind, Except.bind] at hok
    split at hok
    . cases hok
    . next handled hhandled =>
      cases hok
      rw [MessageObject.ofOption_eq_ok] at hhandled
      right
      apply handled_creates hframe hlt rfl rfl (by simp) (by simp) (by simp)
      rw [MessageFactory.query_routingTable hhandled]
      exact id
  . simp only [bind, Except.bind] at hok
    split at hok
    . cases hok
    . next handled hhandled =>
      cases hok
      rw [MessageObject.ofOption_eq_ok] at hhandled
      right
      apply handled_creates hframe hlt rfl rfl (by simp) (by simp) (by simp)
      rw [MessageFactory.findSuccessor_routingTable hhandled]
      exact id
  . cases hok
    right
    exact handled_creates hframe hlt rfl rfl (by simp) (by simp) (by simp) id
  . cases hok
    right
    apply handled_creates hframe hlt rfl rfl (by simp) (by simp)
    . intro _
      exact ⟨getPredAndSuccList_isDone _ _ _, by simp [MessageType.resultTypes]⟩
    . rw [MessageFactory.getPredAndSuccList_routingTable]
      exact id
  . cases hok
    right
    apply handled_creates hframe hlt rfl rfl (by simp) (by simp)
    . intro _
      exact ⟨rfl, by simp [MessageType.resultTypes]⟩
    . exact id
  . cases hok
    exact .inr BroadcastFilelist.handleRequest_creates
  . simp only [bind, Except.bind] at hok
    split at hok
    . cases hok
    . next handled hhandled =>
      rw [MessageObject.ofOption_eq_ok] at hhandled
      cases hok
      right
      have hstorage := (hframe.push handled.notified.toList).trans
        (Frame.node _ _ handled.storage _ (Nat.le_refl _) id)
      have hproper (n : Nat) :
          ActiveObject.Proper
            { toMessageObject :=
                { type := .getFile, request := some request : MessageObject }.withGetFile
                  handled.getFile } n := by
        apply proper_nil _ rfl (by simp [MessageObject.withGetFile])
        refine ⟨by simp [MessageObject.withGetFile], fun _ => ⟨handled.getFile, rfl, ?_⟩⟩
        simp [getFile_outputFile _ _ _ hhandled]
      split
      . exact ⟨_, (hstorage.set (.inl (Nat.le_refl _)) hlt).sweep, hproper _⟩
      . exact ⟨_, hstorage.set (.inl (Nat.le_refl _)) hlt, hproper _⟩
  . cases hok
    exact .inl rfl

end Creation

section Response

variable {sha256 : List UInt8 → String} {h : HandlerObject HandlerFunction Address}
  {response : RequestObject} {ids : Nat → String}

inductive HandlesResponse (sha256 : List UInt8 → String) (d : MessageDispatcher)
    (h : HandlerObject HandlerFunction Address) (response : RequestObject) (ids : Nat → String) :
    MessageDispatcher → Prop where
  | gone (hgone : d.object? h.parent = none) : HandlesResponse sha256 d h response ids d
  | object {d' : MessageDispatcher} (o : ActiveObject) (r : Responded)
      (hobject : d.activeMessages h.parent.object = some o)
      (hdependency : h.parent.dependency = none)
      (hcall : o.toMessageObject.call sha256 d.node d.storage h.handler response
        (ids h.parent.object) = .ok r)
      (hsets : Sets d d' h.parent.object { o with toMessageObject := r.object }) :
    HandlesResponse sha256 d h response ids d'
  | dependency {d' : MessageDispatcher} (o o' : ActiveObject) (k : Nat) (dep : DependencyObject)
      (r : Responded) (hobject : d.activeMessages h.parent.object = some o)
      (hdependency : h.parent.dependency = some k)
      (hfind : o.find? k = some dep)
      (hcall : dep.toMessageObject.call sha256 d.node d.storage h.handler response (ids k) = .ok r)
      (hproceeds : (o.replace k r.object).Proceeds d.next o' d'.next)
      (hsets : Sets d d' h.parent.object o') :
    HandlesResponse sha256 d h response ids d'

theorem call_responds {node : Node} {storage : StaticStorage} {o : MessageObject}
    {function : HandlerFunction}
    {transactionId : String} {r : Responded}
    (hcall : o.call sha256 node storage function response transactionId = .ok r) :
    MessageObject.Responds node o r := by
  cases function with
  | handleResponse => exact MessageObject.handleResponse_responds hcall
  | handleForwardedResponse => exact MessageObject.handleForwardedResponse_responds hcall

theorem handleResponse_handles (hd : Valid d)
    (hok : d.handleResponse sha256 h response ids = .ok d') :
    HandlesResponse sha256 d h response ids d' := by
  unfold MessageDispatcher.handleResponse at hok
  dsimp only at hok
  split at hok
  . next hobject =>
    cases hok
    exact .gone (by simp [object?, hobject])
  . next o hobject hdependency =>
    simp only [bind, Except.bind, pure, Except.pure] at hok
    split at hok
    . cases hok
    . next r hcall =>
      cases hok
      have hframe :=
        Frame.node d r.node r.storage d.next (Nat.le_refl _) (call_responds hcall).table
      have hset := hframe.set (i := h.parent.object) (o := { o with toMessageObject := r.object })
        (.inr ⟨o, hobject, (call_responds hcall).request⟩) (hd.object _ _ hobject).1
      apply HandlesResponse.object o r hobject hdependency hcall
      split
      . exact hset.sweep
      . exact hset
  . next o k hobject hdependency =>
    split at hok
    . next hfind =>
      cases hok
      exact .gone (by simp [object?, hobject, hdependency, hfind])
    . next dep hfind =>
      simp only [bind, Except.bind, pure, Except.pure] at hok
      split at hok
      . cases hok
      . next r hcall =>
        have hframe :=
          Frame.node d r.node r.storage d.next (Nat.le_refl _) (call_responds hcall).table
        have hrequest : d.Replaces h.parent.object (o.replace k r.object) := .inr ⟨o, hobject, rfl⟩
        have hlt := (hd.object _ _ hobject).1
        split at hok
        . rcases handleNotification_advances hframe hrequest hlt hok with ⟨o', hproceeds, hsets⟩
          exact .dependency o o' k dep r hobject hdependency hfind hcall hproceeds hsets
        . cases hok
          exact .dependency o _ k dep r hobject hdependency hfind hcall .kept
            (hframe.set hrequest hlt)

theorem replace_proper {k : Nat} {dep : DependencyObject} {r : Responded} (hd : Valid d)
    (hforwards : d.Forwards h)
    (hrequest : response.message.isRequest = false)
    (hobject : d.activeMessages h.parent.object = some o)
    (hdependency : h.parent.dependency = some k) (hfind : o.find? k = some dep)
    (hcall : dep.toMessageObject.call sha256 d.node d.storage h.handler response (ids k) = .ok r) :
    (o.replace k r.object).Proper d.next := by
  have ho := (hd.object _ _ hobject).2
  have hdep := ho.dependency dep (ActiveObject.mem_of_find? hfind).1
  have hresponds := call_responds hcall
  apply ho.replace hfind hresponds.type (hresponds.proper hdep.1)
  cases hhandler : h.handler with
  | handleResponse =>
    rw [hhandler] at hcall
    exact MessageObject.handleResponse_answered hrequest hcall
  | handleForwardedResponse =>
    have hnone := (hforwards hhandler).2.1
    rw [hdependency] at hnone
    cases hnone

theorem handleResponse_valid (hd : Valid d) (hforwards : d.Forwards h)
    (hrequest : response.message.isRequest = false)
    (hok : d.handleResponse sha256 h response ids = .ok d') : Valid d' := by
  cases handleResponse_handles hd hok with
  | gone => exact hd
  | object o r hobject hdependency hcall hsets =>
    have ho := (hd.object _ _ hobject).2
    have hresponds := call_responds hcall
    apply hsets.valid hd
    exact (ho.mono hsets.next_le).withMessage hresponds.type (hresponds.proper ho.message)
  | dependency o o' k dep r hobject hdependency hfind hcall hproceeds hsets =>
    exact hsets.valid hd (hproceeds.proper (replace_proper hd hforwards hrequest hobject hdependency
      hfind hcall))

end Response

theorem init_valid (sha256 : List UInt8 → String) (self : Peer) (disk : StaticStorage) :
    Valid (init sha256 self disk) := by
  refine ⟨.init self, ?_, ?_, ?_⟩
  . intro i o hobject
    cases hobject
  . intro h hmem
    exact absurd hmem (ConcurrentSet.not_mem_empty h)
  . intro h response htaken
    cases htaken

def alone : MessageDispatcher :=
  init (fun _ => "") ⟨"a", "10.0.0.1", "4000"⟩ (StaticStorage.init "a" (by decide))

theorem Creates.valid (h : Creates d d') (hd : Valid d) : Valid d' := by
  rcases h with ⟨o, hsets, hproper⟩
  exact hsets.valid hd hproper

theorem select_valid (hd : Valid d) (message : RequestObject) :
    Valid { (d.select message).1 with taken := (d.select message).2 } := by
  unfold select
  split
  . refine ⟨hd.table, hd.object, hd.handler, ?_⟩
    intro h response htaken
    rcases Option.map_eq_some_iff.mp htaken with ⟨type, _, heq⟩
    cases heq
  . next hrequest =>
    refine ⟨hd.table, hd.object, ?_, ?_⟩
    . intro h hmem
      exact hd.handler h (ConcurrentSet.mem_getAndEraseIf.mp hmem).1
    . intro h response htaken
      dsimp only at htaken
      rw [ConcurrentSet.getAndEraseIf_fst] at htaken
      rcases Option.map_eq_some_iff.mp htaken with ⟨handler, hfind, heq⟩
      cases heq
      exact ⟨hd.handler h (ConcurrentSet.find_eq_some_iff.mp hfind).1, by simpa using hrequest⟩

theorem Valid.fresh (hd : Valid d) : d.activeMessages d.next = none := by
  cases hobject : d.activeMessages d.next with
  | none => rfl
  | some o => exact absurd (hd.object _ o hobject).1 (Nat.lt_irrefl _)

theorem Valid.idle (hd : Valid d) : Valid { d with taken := none } :=
  ⟨hd.table, hd.object, hd.handler, fun _ _ htaken => nomatch htaken⟩

theorem checkState_sets {node : Node} {expired : Option Nat → Bool} {o' : ActiveObject}
    (hd : Valid d) (hobject : d.activeMessages i = some o)
    (hcheck : o.checkState d.node expired = .ok (node, o')) :
    Sets d ({ d with node := node }.set i o') i o' := by
  have hchecks := ActiveObject.checkState_checks hcheck
  have hframe := Frame.node d node d.storage d.next (Nat.le_refl _) hchecks.2
  exact hframe.set (.inr ⟨o, hobject, hchecks.1.request⟩) (hd.object i o hobject).1

theorem destroy_eq_ok (hok : d.destroy i o = .ok d') :
    ∃ storage, d' =
      { d with storage := storage, activeMessages := Function.update d.activeMessages i none } := by
  simp only [MessageDispatcher.destroy, bind, Except.bind, pure, Except.pure] at hok
  split at hok
  . cases hok
  . split at hok
    . cases hok
    . cases hok
      exact ⟨_, rfl⟩

theorem destroy_valid (hd : Valid d) (i : Nat) (storage : StaticStorage) :
    Valid { d with
      storage := storage, activeMessages := Function.update d.activeMessages i none } := by
  have hobject : ∀ j o', Function.update d.activeMessages i none j = some o' →
    d.activeMessages j = some o' := by
    intro j o' hj
    rw [Function.update_apply] at hj
    split at hj
    . cases hj
    . exact hj
  have hforwards : ∀ h, d.Forwards h →
      Forwards { d with
        storage := storage, activeMessages := Function.update d.activeMessages i none } h := by
    intro h hh hhandler
    rcases hh hhandler with ⟨hlt, hdependency, hrequest⟩
    exact ⟨hlt, hdependency, fun o' ho' => hrequest o' (hobject _ o' ho')⟩
  refine ⟨hd.table, fun j o' hj => hd.object j o' (hobject j o' hj), ?_, ?_⟩
  . intro h hmem
    exact hforwards h (hd.handler h hmem)
  . intro h response htaken
    exact ⟨hforwards h (hd.taken h response htaken).1, (hd.taken h response htaken).2⟩

inductive StepsTo (sha256 : List UInt8 → String) (d : MessageDispatcher) :
    Event → MessageDispatcher → Prop where
  | creates {e : Event} {d' : MessageDispatcher} (hcreates : Creates d d') : StepsTo sha256 d e d'
  | selects (message : RequestObject) :
    StepsTo sha256 d (.receive message) { (d.select message).1 with taken := (d.select message).2 }
  | requested {d' : MessageDispatcher} (ids : Nat → String)
      (hcreates : d' = { d with taken := none } ∨ Creates { d with taken := none } d') :
    StepsTo sha256 d (.invoke ids) d'
  | responds {d' : MessageDispatcher} (ids : Nat → String)
      (h : HandlerObject HandlerFunction Address) (response : RequestObject)
      (htaken : d.taken = some (.response h response))
      (hok : { d with taken := none }.handleResponse sha256 h response ids = .ok d') :
    StepsTo sha256 d (.invoke ids) d'
  | checks {d' : MessageDispatcher} (i : Nat) (expired : Option Nat → Bool) (o o' : ActiveObject)
      (hobject : d.activeMessages i = some o) (hchecks : ActiveObject.Checks o o')
      (hsets : Sets d d' i o') :
    StepsTo sha256 d (.checkState i expired) d'
  | destroys (i : Nat) (storage : StaticStorage) :
    StepsTo sha256 d (.destroy i)
      { d with storage := storage, activeMessages := Function.update d.activeMessages i none }

theorem step_stepsTo {sha256 : String → String} {sha256' : List UInt8 → String} {e : Event}
    (hd : Valid d)
    (hstep : d.step sha256 sha256' e = some (.ok d')) : StepsTo sha256' d e d' := by
  cases e with
  | join address port ids =>
    cases hstep
    exact .creates (Join.createRequest_creates address port)
  | stabilize ids =>
    unfold step at hstep
    dsimp only at hstep
    split at hstep
    . cases hstep
    . cases hstep
      exact .creates Stabilize.createRequest_creates
  | checkPredecessor ids =>
    unfold step at hstep
    dsimp only at hstep
    split at hstep
    . cases hstep
    . cases hstep
      exact .creates CheckPredecessor.createRequest_creates
  | broadcastFilelist ids =>
    cases hstep
    exact .creates BroadcastFilelist.createRequest_creates
  | receive message =>
    unfold step at hstep
    dsimp only at hstep
    split at hstep
    . cases hstep
    . cases hstep
      exact .selects message
  | invoke ids =>
    rcases Option.map_eq_some_iff.mp hstep with ⟨invocation, htaken, hok⟩
    cases invocation with
    | request type request => exact .requested ids (handleRequest_creates hok)
    | response h response => exact .responds ids h response htaken hok
  | checkState i expired =>
    rcases Option.map_eq_some_iff.mp hstep with ⟨o, hobject, hok⟩
    simp only [bind, Except.bind, pure, Except.pure] at hok
    split at hok
    . cases hok
    . next checked hcheck =>
      cases hok
      exact .checks i expired o _ hobject (ActiveObject.checkState_checks hcheck).1
        (checkState_sets hd hobject hcheck)
  | destroy i =>
    rcases Option.bind_eq_some_iff.mp hstep with ⟨o, hobject, hok⟩
    split at hok
    . rw [Option.some.injEq] at hok
      rcases destroy_eq_ok hok with ⟨storage, heq⟩
      rw [heq]
      exact .destroys i storage
    . cases hok

theorem StepsTo.valid {sha256 : List UInt8 → String} {e : Event} (h : StepsTo sha256 d e d')
    (hd : Valid d) :
    Valid d' := by
  cases h with
  | creates hcreates => exact hcreates.valid hd
  | selects message => exact select_valid hd message
  | requested ids hcreates =>
    cases hcreates with
    | inl heq => exact heq ▸ hd.idle
    | inr hcreates => exact hcreates.valid hd.idle
  | responds ids h response htaken hok =>
    have hresponse := hd.taken h response htaken
    exact handleResponse_valid hd.idle hresponse.1 hresponse.2 hok
  | checks i expired o o' hobject hchecks hsets =>
    exact hsets.valid hd ((hchecks.proper (hd.object i o hobject).2).mono hsets.next_le)
  | destroys i storage => exact destroy_valid hd i storage

theorem next?_eq_some {sha256 : String → String} {sha256' : List UInt8 → String} {e : Event} :
    d.next? sha256 sha256' e = some d' ↔ d.step sha256 sha256' e = some (.ok d') := by
  unfold next?
  cases d.step sha256 sha256' e with
  | none => simp
  | some result =>
    cases result with
    | error crash => simp [Except.toOption]
    | ok d'' => simp [Except.toOption]

end MessageDispatcher

end Peerpaste
